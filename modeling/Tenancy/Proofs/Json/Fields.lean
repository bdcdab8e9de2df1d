import Tenancy.Json.Record
import Tenancy.Proofs.Json.Shape

/-! Records whose members may be missing: how their fields are found again. -/

namespace Tenancy.Json

def present (names : List String) (values : List (Option Json)) : List (String × Json) :=
  (names.zip values).filterMap fun s => s.2.map (s.1, ·)

def listed {α : Type} (encode : α → Json) (as : List α) : Option Json :=
  if as.isEmpty then none else some (.arr (as.map encode))

theorem ofMembers_zip (names : List String) (values : List (Option Json)) :
    ofMembers ((names.zip values).map fun s => s.2.map (s.1, ·)) =
      .obj (present names values) := by
  rw [ofMembers, List.filterMap_map]
  rfl

section

variable {α : Type} (name : String) (encode : α → Json)

theorem unlessNone_eq (a : Option α) :
    unlessNone name encode a = (a.map encode).map (name, ·) := by
  cases a <;> rfl

theorem unlessEmpty_eq (as : List α) :
    unlessEmpty name encode as = (listed encode as).map (name, ·) := by
  cases as <;> rfl

end

variable {α : Type} {names known : List String} {values : List (Option Json)} {n : String}

theorem mem_present {m : String × Json} (h : m ∈ present names values) :
    m.1 ∈ names ∧ some m.2 ∈ values := by
  obtain ⟨⟨k, v⟩, mem, hm⟩ := List.mem_filterMap.1 h
  obtain ⟨j, rfl, rfl⟩ := Option.map_eq_some_iff.1 hm
  exact List.of_mem_zip mem

theorem lookup_present {v : Option Json} (distinct : names.Nodup)
    (at_ : (names.zip values).lookup n = some v) : (present names values).lookup n = v := by
  have absent {ms : List (String × Json)} (h : ∀ m ∈ ms, m.1 ≠ n) : ms.lookup n = none :=
    List.lookup_eq_none_iff.2 fun m hm => bne_iff_ne.2 (h m hm).symm
  induction names generalizing values with
  | nil => cases at_
  | cons k names ih =>
    obtain ⟨fresh, distinct⟩ := List.nodup_cons.1 distinct
    cases values with
    | nil => cases at_
    | cons x values =>
      rw [List.zip_cons_cons, List.lookup_cons] at at_
      by_cases hk : n = k
      · subst hk
        rw [beq_self_eq_true] at at_
        obtain rfl : x = v := Option.some.inj at_
        cases x with
        | none =>
          refine absent fun m hm he => fresh ?_
          have mem : m ∈ present names values := hm
          exact he ▸ (mem_present mem).1
        | some j => exact (List.lookup_cons ..).trans (by rw [beq_self_eq_true])
      · rw [beq_false_of_ne hk] at at_
        have rest := ih distinct at_
        cases x with
        | none => exact rest
        | some j => exact (List.lookup_cons ..).trans (by rw [beq_false_of_ne hk]; exact rest)

theorem hasDouble_of_nodup (h : names.Nodup) : hasDouble names = false := by
  induction names with
  | nil => rfl
  | cons n ns ih =>
    obtain ⟨fresh, distinct⟩ := List.nodup_cons.1 h
    rw [hasDouble, ih distinct, Bool.or_false]
    simpa using fresh

theorem names_present (distinct : names.Nodup) :
    ((present names values).map (·.1)).Nodup := by
  induction names generalizing values with
  | nil => exact List.nodup_nil
  | cons n names ih =>
    obtain ⟨fresh, distinct⟩ := List.nodup_cons.1 distinct
    cases values with
    | nil => exact List.nodup_nil
    | cons v values =>
      cases v with
      | none => exact ih distinct
      | some j =>
        refine List.nodup_cons.2 ⟨fun h => fresh ?_, ih distinct⟩
        obtain ⟨m, hm, rfl⟩ := List.mem_map.1 h
        exact (mem_present hm).1

theorem fieldsOf?_present (distinct : names.Nodup) (subset : ∀ n ∈ names, n ∈ known) :
    fieldsOf? known (present names values) = some (present names values) := by
  have all : (present names values).filter (fun m => known.contains m.1) = present names values :=
    List.filter_eq_self.2 fun m hm => by simpa using subset _ (mem_present hm).1
  simp only [fieldsOf?, all, hasDouble_of_nodup (names_present distinct), Bool.false_eq_true,
    if_false]

theorem record?_present (distinct : names.Nodup) :
    record? names (.obj (present names values)) = some (present names values) :=
  fieldsOf?_present distinct fun _ h => h

theorem openRecord?_present {inPlace held : List String} (distinct : names.Nodup)
    (subset : ∀ n ∈ names, n ∈ inPlace ++ held)
    (sound : (obj (present names values)).sound = true) :
    openRecord? inPlace held (.obj (present names values)) = some (present names values) := by
  have members : ∀ m ∈ present names values, m.2.sound = true := fun m hm =>
    sound_iff.2 (all_obj.1 (sound_iff.1 sound) m hm)
  have all : (present names values).all fun m => inPlace.contains m.1 || m.2.sound :=
    List.all_eq_true.2 fun m hm => by rw [members m hm, Bool.or_true]
  rw [openRecord?, if_pos all, fieldsOf?_present distinct subset]

/-! ### Leaves and depth -/

section

variable {p : Json → Prop} {d : Nat} {fs : Fields} {j : Json}

theorem within_present (h : ∀ v ∈ values, ∀ j ∈ v, Within p d j) :
    Within p (d + 1) (.obj (present names values)) :=
  within_obj.2 fun m hm => h _ (mem_present hm).2 m.2 rfl

theorem within_listed {encode : α → Json} {as : List α} (h : ∀ a ∈ as, Within p d (encode a)) :
    ∀ j ∈ listed encode as, Within p (d + 1) j := by
  intro j hj
  unfold listed at hj
  split at hj
  · cases hj
  · cases hj
    exact within_arr.2 (List.forall_mem_map.2 h)

theorem within_fieldsOf? {ms : List (String × Json)} (h : fieldsOf? names ms = some fs)
    (within : ∀ m ∈ ms, Within p d m.2) : ∀ f ∈ fs, Within p d f.2 := by
  simp only [fieldsOf?] at h
  split at h
  · cases h
  · cases h
    exact fun f hf => within f (List.mem_filter.1 hf).1

theorem within_record? (h : record? names j = some fs) (within : Within p (d + 1) j) :
    ∀ f ∈ fs, Within p d f.2 := by
  unfold record? at h
  split at h
  · exact within_fieldsOf? h (within_obj.1 within)
  · split at h
    · cases h
      exact fun f hf => within_arr.1 within _ (List.of_mem_zip hf).2
    · cases h
  · cases h

theorem within_openRecord? {inPlace held : List String}
    (h : openRecord? inPlace held j = some fs) (within : Within p (d + 1) j) :
    ∀ f ∈ fs, Within p d f.2 := by
  unfold openRecord? at h
  split at h
  · split at h
    · exact within_fieldsOf? h (within_obj.1 within)
    · cases h
  · cases h

end

/-! ### Fields -/

theorem str_ne_null (s : String) : str s ≠ null := by
  intro h
  cases h

theorem obj_ne_null (ms : List (String × Json)) : obj ms ≠ null := by
  intro h
  cases h


namespace Fields

variable {decode : Json → Option α} {encode : α → Json} {j : Json} {default : α}

theorem required?_present (distinct : names.Nodup)
    (at_ : (names.zip values).lookup n = some (some j)) :
    required? (present names values) n decode = decode j := by
  rw [required?, lookup_present distinct at_, Option.bind_some]

theorem withDefault?_present (distinct : names.Nodup)
    (at_ : (names.zip values).lookup n = some (some j)) :
    withDefault? (present names values) n default decode = decode j := by
  rw [withDefault?, lookup_present distinct at_]

/-- A field is read again if it is left out only when it has its default. -/
theorem withDefault?_unless {c : Prop} [Decidable c] {a : α} (distinct : names.Nodup)
    (at_ : (names.zip values).lookup n = some (if c then none else some j))
    (left : c → a = default) (back : decode j = some a) :
    withDefault? (present names values) n default decode = some a := by
  rw [withDefault?, lookup_present distinct at_]
  by_cases h : c
  · rw [if_pos h, left h]
  · rw [if_neg h]
    exact back

theorem list?_arr {as : List α} (back : ∀ a ∈ as, decode (encode a) = some a) :
    list? decode (.arr (as.map encode)) = some as := by
  rw [list?]
  induction as with
  | nil => rfl
  | cons a as ih =>
    rw [List.map_cons, List.mapM_cons, back a (List.mem_cons_self ..),
      ih fun b hb => back b (List.mem_cons_of_mem _ hb)]
    rfl

theorem withDefault?_listed {as : List α} (distinct : names.Nodup)
    (at_ : (names.zip values).lookup n = some (listed encode as))
    (back : ∀ a ∈ as, decode (encode a) = some a) :
    withDefault? (present names values) n [] (list? decode) = some as :=
  withDefault?_unless distinct at_ List.isEmpty_iff.1 (list?_arr back)

theorem optional?_some {x : α} (distinct : names.Nodup)
    (at_ : (names.zip values).lookup n = some (some (encode x)))
    (back : decode (encode x) = some x) (ne : encode x ≠ .null) :
    optional? (present names values) n decode = some (some x) := by
  rw [optional?, lookup_present distinct at_]
  split
  next heq => cases heq
  next heq => exact (ne (Option.some.inj heq)).elim
  next heq =>
    cases heq
    rw [back, Option.map_some]

theorem optional?_present {a : Option α} (distinct : names.Nodup)
    (at_ : (names.zip values).lookup n = some (a.map encode))
    (back : ∀ x ∈ a, decode (encode x) = some x) (ne : ∀ x ∈ a, encode x ≠ .null) :
    optional? (present names values) n decode = some a := by
  cases a with
  | none =>
    rw [optional?, lookup_present distinct at_]
    rfl
  | some x => exact optional?_some distinct at_ (back x rfl) (ne x rfl)

theorem optional?_text {a : Option String} (distinct : names.Nodup)
    (at_ : (names.zip values).lookup n = some (a.map .str)) :
    optional? (present names values) n string? = some a :=
  optional?_present distinct at_ (fun _ _ => rfl) fun _ _ => str_ne_null _

theorem optional?_ofOption {a : Option α} (distinct : names.Nodup)
    (at_ : (names.zip values).lookup n = some (some (ofOption encode a)))
    (back : ∀ x ∈ a, decode (encode x) = some x) (ne : ∀ x ∈ a, encode x ≠ .null) :
    optional? (present names values) n decode = some a := by
  cases a with
  | none =>
    rw [optional?, lookup_present distinct at_]
    rfl
  | some x => exact optional?_some distinct at_ (back x rfl) (ne x rfl)

variable {fs : Fields}

theorem mem_of_lookup (h : fs.lookup n = some j) : (n, j) ∈ fs := by
  obtain ⟨_, _, rfl, -⟩ := List.lookup_eq_some_iff.1 h
  exact List.mem_append_right _ (List.mem_cons_self ..)

theorem of_required? {a : α} (h : required? fs n decode = some a) :
    ∃ j, (n, j) ∈ fs ∧ decode j = some a := by
  obtain ⟨j, found, decoded⟩ := Option.bind_eq_some_iff.1 h
  exact ⟨j, mem_of_lookup found, decoded⟩

theorem of_withDefault? {a : α} (h : withDefault? fs n default decode = some a) :
    a = default ∨ ∃ j, (n, j) ∈ fs ∧ decode j = some a := by
  unfold withDefault? at h
  split at h
  next => exact .inl (Option.some.inj h).symm
  next j found => exact .inr ⟨j, mem_of_lookup found, h⟩

theorem of_optional? {a : α} (h : optional? fs n decode = some (some a)) :
    ∃ j, (n, j) ∈ fs ∧ j ≠ .null ∧ decode j = some a := by
  unfold optional? at h
  split at h
  next => cases h
  next => cases h
  next j given found =>
    obtain ⟨b, decoded, is⟩ := Option.map_eq_some_iff.1 h
    cases is
    exact ⟨j, mem_of_lookup found, given, decoded⟩

end Fields
end Tenancy.Json
