import Tenancy.Change
import Tenancy.Deployment
import Tenancy.Proofs.Json.Bytes
import Tenancy.Proofs.Json.Fields
import Tenancy.Proofs.Time.Text
import Tenancy.Proofs.Uid

/-! Every part of an object is decoded from its encoding. -/

namespace Tenancy

open Json Fields

variable {d : Nat}

/-! ### Texts -/

theorem ConditionKind.decode?_text (k : ConditionKind) (held : Bool) :
    decode? held (.str k.text) = some k := by
  cases k <;> rfl

theorem ConditionStatus.decode?_text (s : ConditionStatus) (held : Bool) :
    decode? held (.str s.text) = some s := by
  cases s <;> rfl

theorem AdminState.parse?_text (s : AdminState) : parse? s.text = some s := by
  cases s <;> rfl

theorem DeploymentKind.parse?_text (k : DeploymentKind) : parse? k.text = some k := by
  cases k <;> rfl

theorem Operation.parse?_text (o : Operation) : parse? o.text = some o := by
  cases o <;> rfl

theorem Instant.decode?_encode {t : Instant} (h : t.Plain) : decode? t.encode = some t := by
  rw [decode?, encode, string?, Option.bind_some, parse?_text h]

/-! ### Leaves -/

theorem within_str (s : String) : Within Exact d (.str s) := ⟨trivial, Nat.zero_le _⟩

theorem within_ofNat (w : UInt64) : Within Exact d (.ofNat w.toNat) := by
  have less := w.toNat_lt
  refine ⟨⟨?_, ?_⟩, Nat.zero_le _⟩
  · exact Int.le_trans (by decide) (Int.natCast_nonneg _)
  · exact Int.ofNat_lt.2 less

theorem Json.sound_of_exact {j : Json} (h : All Exact j) : j.sound = true := by
  refine sound_iff.2 (h.imp fun j hj => ?_)
  rintro rfl
  exact hj

/-! ### Strategies -/

/-- The strategy is not `null`, and the text of its value says all of it. -/
structure Strategy.Portable (s : Strategy) : Prop where
  ne_null : s.value ≠ .null
  exact : All Exact s.value

theorem Strategy.decode?_encode {s : Strategy} (h : s.Portable) : decode? s.encode = some s := by
  obtain ⟨value, canonical⟩ := s
  have sound : value.sound = true := sound_of_exact h.exact
  simp only [decode?, encode, sound, if_true, ofJson, canonical]

/-! ### Registers -/

namespace Register

def names : List String := ["kind", "name"]

theorem encode_eq (r : Register) :
    r.encode = .obj (present names [some (.str r.kind), some (.str r.name)]) := rfl

theorem decode?_encode (r : Register) : decode? r.encode = some r := by
  have distinct : names.Nodup := by decide
  rw [encode_eq, decode?, ← names, record?_present distinct]
  simp only [Option.bind_eq_bind, Option.bind_some]
  rw [required?_present distinct rfl, required?_present distinct rfl]
  rfl

theorem within_encode (r : Register) : Within Exact (d + 1) r.encode := by
  rw [encode_eq]
  refine within_present ?_
  simp [within_str]

end Register

/-! ### Conditions -/

namespace Condition

def names : List String := ["kind", "status", "reason", "message", "lastTransitionTime"]

theorem encode_eq (c : Condition) : c.encode = .obj (present names [some (.str c.kind.text),
    some (.str c.status.text), some (.str c.reason),
    if c.message = "" then none else some (.str c.message), some c.since.encode]) := by
  unfold encode
  split <;> rfl

theorem decode?_encode {c : Condition} (h : c.since.Plain) (held : Bool) :
    decode? held c.encode = some c := by
  have distinct : names.Nodup := by decide
  rw [encode_eq, decode?, ← names, record?_present distinct]
  simp only [Option.bind_eq_bind, Option.bind_some]
  rw [required?_present distinct rfl, ConditionKind.decode?_text, Option.bind_some,
    required?_present distinct rfl, ConditionStatus.decode?_text, Option.bind_some,
    required?_present distinct rfl, string?, Option.bind_some,
    withDefault?_unless (c := c.message = "") distinct rfl id rfl, Option.bind_some,
    required?_present distinct rfl, Instant.decode?_encode h]
  rfl

theorem within_encode (c : Condition) : Within Exact (d + 1) c.encode := by
  rw [encode_eq]
  refine within_present ?_
  split <;> simp [within_str, Instant.encode]

end Condition

/-! ### Metadata -/

theorem TypeMeta.ofFields?_present {t : TypeMeta} {names : List String}
    {values : List (Option Json)} (distinct : names.Nodup)
    (version : (names.zip values).lookup "apiVersion" = some (some (.str t.apiVersion)))
    (kind : (names.zip values).lookup "kind" = some (some (.str t.kind))) :
    ofFields? (present names values) = some t := by
  rw [ofFields?, withDefault?_present distinct version, withDefault?_present distinct kind]
  rfl

namespace Metadata

theorem encode_eq (m : Metadata) : m.encode = .obj (present fieldNames [some (.str m.name),
    some (.str m.ns), m.uid.map fun u => .str u.text, some (.ofNat m.resourceVersion.toNat),
    some (.ofNat m.generation.toNat), listed .str m.finalizers, m.deletedAt.map Instant.encode,
    if m.annotations.isEmpty then none
      else some (.obj (m.annotations.toList.map fun p => (p.1, .str p.2)))]) := by
  rw [← ofMembers_zip, encode, unlessNone_eq, unlessNone_eq, unlessEmpty_eq]
  split <;> rfl

theorem word64?_ofNat (w : UInt64) : word64? (.ofNat w.toNat) = some w := by
  have less : 0 ≤ (w.toNat : Int) ∧ (w.toNat : Int).toNat < UInt64.size :=
    ⟨Int.natCast_nonneg _, w.toNat_lt⟩
  rw [ofNat, word64?, if_pos less, Int.toNat_natCast, UInt64.ofNat_toNat]

theorem foldl_toList (m : Std.ExtTreeMap String String) :
    m.toList.foldl (fun m p => m.insert p.1 p.2) ∅ = m := by
  rw [← Std.ExtTreeMap.insertMany_list_eq_foldl]
  refine Std.ExtTreeMap.ext_getElem? fun k => ?_
  cases value : m[k]? with
  | some v =>
    have mem : (k, v) ∈ m.toList := Std.ExtTreeMap.mem_toList_iff_getElem?_eq_some.2 value
    exact Std.ExtTreeMap.getElem?_insertMany_list_of_mem Std.ReflCmp.compare_self
      Std.ExtTreeMap.distinct_keys_toList mem
  | none =>
    rw [Std.ExtTreeMap.getElem?_insertMany_list_of_contains_eq_false]
    · exact Std.ExtTreeMap.getElem?_empty
    · rw [Std.ExtTreeMap.map_fst_toList_eq_keys, ← Bool.not_eq_true, List.contains_iff_mem,
        Std.ExtTreeMap.mem_keys, ← Std.ExtTreeMap.isSome_getElem?_iff_mem, value]
      exact Bool.false_ne_true

theorem members?_toList (m : Std.ExtTreeMap String String) :
    members? string? (.obj (m.toList.map fun p => (p.1, .str p.2))) = some m.toList := by
  rw [members?]
  generalize m.toList = ps
  induction ps with
  | nil => rfl
  | cons p ps ih =>
    rw [List.map_cons, List.mapM_cons, ih]
    rfl

theorem decode?_encode {m : Metadata} (h : ∀ t ∈ m.deletedAt, t.Plain) :
    decode? m.encode = some m := by
  have distinct : fieldNames.Nodup := by decide
  have annotations : (members? string? (.obj (m.annotations.toList.map fun p =>
      (p.1, .str p.2)))).map (·.foldl (fun m p => m.insert p.1 p.2) ∅) = some m.annotations := by
    rw [members?_toList, Option.map_some, foldl_toList]
  have uid (u : Uid) : (string? (.str u.text)).bind Uid.parse? = some u := by
    rw [string?, Option.bind_some, Uid.parse?_text]
  rw [encode_eq, decode?, record?_present distinct]
  simp only [Option.bind_eq_bind, Option.bind_some]
  rw [required?_present distinct rfl, string?, Option.bind_some,
    withDefault?_present distinct rfl, string?, Option.bind_some,
    optional?_present distinct rfl, Option.bind_some,
    withDefault?_present distinct rfl, word64?_ofNat, Option.bind_some,
    withDefault?_present distinct rfl, word64?_ofNat, Option.bind_some,
    withDefault?_listed distinct rfl, Option.bind_some,
    optional?_present distinct rfl, Option.bind_some,
    withDefault?_unless distinct rfl Std.ExtTreeMap.isEmpty_iff.1 annotations]
  · rfl
  · exact fun t ht => Instant.decode?_encode (h t ht)
  · exact fun _ _ => str_ne_null _
  · exact fun _ _ => rfl
  · exact fun u _ => uid u
  · exact fun _ _ => str_ne_null _

theorem within_encode (m : Metadata) : Within Exact (d + 2) m.encode := by
  have annotations : Within Exact (d + 1)
      (.obj (m.annotations.toList.map fun p => (p.1, .str p.2))) :=
    within_obj.2 (List.forall_mem_map.2 fun p _ => within_str p.2)
  have finalizers : ∀ j ∈ listed .str m.finalizers, Within Exact (d + 1) j :=
    within_listed fun f _ => within_str f
  rw [encode_eq]
  refine within_present ?_
  split <;> simpa [within_str, within_ofNat, Instant.encode, annotations]

end Metadata

end Tenancy
