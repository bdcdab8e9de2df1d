import Tenancy.Proofs.Store.Effect

/-! The list of a store has every stored object once, by its key. So the first object that a
question about keys finds is the one with the least key, in every order of writes. -/

namespace Tenancy

section

variable {α β : Type} {R : α → β → Prop}

theorem rel_some_left {a : α} {q : Option β} (h : Option.Rel R (some a) q) :
    ∃ b, q = some b ∧ R a b := by
  cases h with
  | some r => exact ⟨_, rfl, r⟩

theorem rel_some_right {p : Option α} {b : β} (h : Option.Rel R p (some b)) :
    ∃ a, p = some a ∧ R a b := by
  cases h with
  | some r => exact ⟨_, rfl, r⟩

end

namespace Store

variable {S : Type} {s t : Store S}

theorem mem_entries {k : Key} {o : Resource S} : (k, o) ∈ s.objects.toList ↔ s.get? k = some o :=
  Std.ExtTreeMap.mem_toList_iff_getElem?_eq_some

theorem mem_list (keyed : s.Keyed) {o : Resource S} : o ∈ s.list ↔ s.get? o.key = some o := by
  constructor
  · intro h
    obtain ⟨⟨k, _⟩, hk, rfl⟩ := List.mem_map.1 h
    have stored := mem_entries.1 hk
    rwa [keyed k _ stored]
  · intro h
    exact List.mem_map.2 ⟨(o.key, o), mem_entries.2 h, rfl⟩

theorem ordered_list (keyed : s.Keyed) :
    s.list.Pairwise fun a b => compare a.key b.key = .lt := by
  have key {p : Key × Resource S} (hp : p ∈ s.objects.toList) : p.2.key = p.1 :=
    keyed p.1 p.2 (mem_entries.1 hp)
  refine List.pairwise_map.2 ((Std.ExtTreeMap.ordered_keys_toList).imp_of_mem ?_)
  intro a b ha hb hab
  rwa [key ha, key hb]

def First (s : Store S) (p : Resource S → Prop) (o : Resource S) : Prop :=
  ∃ k, s.get? k = some o ∧ p o ∧ ∀ l q, s.get? l = some q → p q → compare k l ≠ .gt

theorem find?_list {p : Resource S → Bool} {o : Resource S} :
    s.list.find? p = some o ↔ s.First (p · = true) o := by
  have found {k : Key} {q : Resource S} (h : s.objects.toList.find? (p ∘ (·.2)) = some (k, q)) :
      s.get? k = some q ∧ p q = true ∧
        ∀ l x, s.get? l = some x → p x = true → compare k l ≠ .gt := by
    obtain ⟨holds, before, after, hl, passed⟩ := List.find?_eq_some_iff_append.1 h
    refine ⟨mem_entries.1 (List.mem_of_find?_eq_some h), holds, fun l x hx px => ?_⟩
    have ordered := Std.ExtTreeMap.ordered_keys_toList (t := s.objects)
    have listed : (l, x) ∈ s.objects.toList := mem_entries.2 hx
    rw [hl] at ordered listed
    rcases List.mem_append.1 listed with listed | listed
    · have fails := passed _ listed
      simp [px] at fails
    · rcases List.mem_cons.1 listed with same | listed
      · cases same
        simp
      · rw [(List.pairwise_cons.1 (List.pairwise_append.1 ordered).2.1).1 _ listed]
        decide
  unfold list
  rw [List.find?_map, Option.map_eq_some_iff]
  constructor
  · rintro ⟨⟨k, q⟩, h, rfl⟩
    exact ⟨k, found h⟩
  · rintro ⟨k, stored, holds, least⟩
    cases h : s.objects.toList.find? (p ∘ (·.2)) with
    | none => exact absurd holds (List.find?_eq_none.1 h (k, o) (mem_entries.2 stored))
    | some e =>
      -- neither of the two first keys is above the other
      obtain ⟨stored', holds', least'⟩ := found (k := e.1) (q := e.2) h
      have same : k = e.1 := by
        cases below : compare k e.1 with
        | eq => exact Std.LawfulEqCmp.eq_of_compare below
        | gt => exact absurd below (least _ _ stored' holds')
        | lt => exact absurd (Std.OrientedCmp.gt_of_lt below) (least' _ _ stored holds)
      rw [← same, stored] at stored'
      exact ⟨e, rfl, (Option.some.inj stored').symm⟩

theorem find?_list_eq_none {p : Resource S → Bool} :
    s.list.find? p = none ↔ ∀ k o, s.get? k = some o → p o = false := by
  unfold list
  rw [List.find?_map, Option.map_eq_none_iff, List.find?_eq_none]
  constructor
  · intro h k o stored
    exact Bool.eq_false_iff.2 (h (k, o) (mem_entries.2 stored))
  · rintro h ⟨k, o⟩ listed
    exact Bool.eq_false_iff.1 (h k o (mem_entries.1 listed))

theorem least_of_find? (keyed : s.Keyed) {p : Resource S → Bool} {o : Resource S}
    (h : s.list.find? p = some o) : p o = true ∧ s.get? o.key = some o ∧
      ∀ x, s.get? x.key = some x → p x = true → compare x.key o.key ≠ .lt := by
  obtain ⟨k, stored, holds, least⟩ := find?_list.1 h
  obtain rfl : o.key = k := keyed k o stored
  exact ⟨holds, stored, fun x hx px less => least _ x hx px (Std.OrientedCmp.gt_of_lt less)⟩

theorem find?_list_rel {R : Resource S → Resource S → Prop} {f : Key → Bool} (hs : s.Keyed)
    (ht : t.Keyed) (agree : ∀ k, f k = true → Option.Rel R (s.get? k) (t.get? k)) :
    Option.Rel R (s.list.find? fun o => f o.key) (t.list.find? fun o => f o.key) := by
  have right {o : Resource S} (fo : f o.key = true) (ho : s.get? o.key = some o) :
      ∃ q, t.get? o.key = some q ∧ q.key = o.key ∧ R o q := by
    obtain ⟨q, hq, r⟩ := rel_some_left (ho ▸ agree o.key fo)
    exact ⟨q, hq, ht _ _ hq, r⟩
  have left {q : Resource S} (fq : f q.key = true) (hq : t.get? q.key = some q) :
      ∃ o, s.get? q.key = some o ∧ o.key = q.key := by
    obtain ⟨o, ho, -⟩ := rel_some_right (hq ▸ agree q.key fq)
    exact ⟨o, ho, hs _ _ ho⟩
  cases hfs : s.list.find? fun o => f o.key with
  | none =>
    cases hft : t.list.find? fun o => f o.key with
    | none => exact .none
    | some q =>
      obtain ⟨fq, stored, -⟩ := least_of_find? ht hft
      obtain ⟨o, ho, key⟩ := left fq stored
      have := List.find?_eq_none.1 hfs o ((mem_list hs).2 (key ▸ ho))
      exact absurd (key ▸ fq) this
  | some o =>
    obtain ⟨fo, stored, least⟩ := least_of_find? hs hfs
    obtain ⟨x, hx, keyx, rel⟩ := right fo stored
    cases hft : t.list.find? fun o => f o.key with
    | none =>
      have := List.find?_eq_none.1 hft x ((mem_list ht).2 (keyx ▸ hx))
      exact absurd (keyx ▸ fo) this
    | some q =>
      -- neither of the two first keys is below the other
      obtain ⟨fq, stored', least'⟩ := least_of_find? ht hft
      obtain ⟨y, hy, keyy⟩ := left fq stored'
      have notBelow := least y (keyy ▸ hy) (keyy ▸ fq)
      have notAbove := least' x (keyx ▸ hx) (keyx ▸ fo)
      rw [keyy] at notBelow
      rw [keyx] at notAbove
      have same : o.key = q.key := by
        cases h : compare o.key q.key with
        | eq => exact Std.LawfulEqCmp.eq_of_compare h
        | lt => exact absurd h notAbove
        | gt => exact absurd (Std.OrientedCmp.lt_of_gt h) notBelow
      rw [same, stored'] at hx
      cases hx
      exact .some rel

end Store
end Tenancy
