import Mathlib.Data.List.Nodup
import Tenancy.Proofs.Store.Effect

/-! Stores that are sown: objects were created one after the other in an empty store, and nothing
else has happened. An object whose key was there before is refused. -/

namespace Tenancy

variable {S : Type}

def Resource.planted (o : Resource S) (uid : Uid) (n : Nat) : Resource S :=
  { o with metadata := { o.metadata with
    uid := some uid, generation := 1, deletedAt := none, resourceVersion := .ofNat n } }

namespace Store

/-- Exactly these objects are there, with the versions from 1 on in their order. -/
structure Sown (uid : Nat → Uid) (os : List (Resource S)) (s : Store S) : Prop where
  distinct : (os.map (·.key)).Nodup
  version : s.version = .ofNat os.length
  holds : ∀ (k : Key) (p : Resource S), s.get? k = some p ↔
    ∃ (i : Nat) (o : Resource S), os[i]? = some o ∧ o.key = k ∧ p = o.planted (uid i) (i + 1)

variable {uid : Nat → Uid} {os : List (Resource S)} {s : Store S} {o : Resource S} {k : Key}

namespace Sown

theorem get?_eq_none (h : Sown uid os s) : s.get? k = none ↔ k ∉ os.map (·.key) := by
  rw [List.mem_map]
  constructor
  · rintro absent ⟨o, known, rfl⟩
    obtain ⟨i, at_⟩ := List.getElem?_of_mem known
    have stored := (h.holds o.key _).2 ⟨i, o, at_, rfl, rfl⟩
    cases absent.symm.trans stored
  · intro unknown
    cases stored : s.get? k with
    | none => rfl
    | some p =>
      obtain ⟨i, o, at_, key, -⟩ := (h.holds k p).1 stored
      exact absurd ⟨o, List.mem_of_getElem? at_, key⟩ unknown

theorem put (h : Sown uid os s) (fresh : o.key ∉ os.map (·.key)) :
    Sown uid (os ++ [o]) (s.put (o.planted (uid os.length) (os.length + 1))) := by
  have key : (o.planted (uid os.length) (os.length + 1)).key = o.key := rfl
  have at_iff {i : Nat} {x : Resource S} :
      (os ++ [o])[i]? = some x ↔ os[i]? = some x ∨ x = o ∧ i = os.length := by
    rw [← List.mk_mem_zipIdx_iff_getElem?, List.zipIdx_append, List.mem_append,
      List.mk_mem_zipIdx_iff_getElem?]
    simp
  refine ⟨?_, ?_, fun k p => ?_⟩
  · rw [List.map_append, List.map_singleton, ← List.concat_eq_append]
    exact (List.nodup_concat _ _).2 ⟨fresh, h.distinct⟩
  · rw [List.length_append, List.length_singleton, UInt64.ofNat_add]
    exact congrArg (· + 1) h.version
  · rw [get?_put, key]
    split
    · rename_i same
      subst same
      constructor
      · rintro ⟨⟩
        exact ⟨os.length, o, at_iff.2 (.inr ⟨rfl, rfl⟩), rfl, rfl⟩
      · rintro ⟨i, x, at_, same, rfl⟩
        rcases at_iff.1 at_ with before | ⟨rfl, rfl⟩
        · -- the key would have been there before
          exact absurd (List.mem_map.2 ⟨x, List.mem_of_getElem? before, same⟩) fresh
        · rfl
    · rename_i other
      rw [h.holds]
      constructor
      · rintro ⟨i, x, at_, same, planted⟩
        exact ⟨i, x, at_iff.2 (.inl at_), same, planted⟩
      · rintro ⟨i, x, at_, same, planted⟩
        rcases at_iff.1 at_ with before | ⟨rfl, -⟩
        · exact ⟨i, x, before, same, planted⟩
        · exact absurd same other

variable [ResourceKind S]

theorem create (h : Sown uid os s) (fresh : o.key ∉ os.map (·.key)) :
    ∃ c, s.create (uid os.length) o = ⟨.ok (o.planted (uid os.length) (os.length + 1)),
      s.put (o.planted (uid os.length) (os.length + 1)), c⟩ := by
  have next : s.version + 1 = .ofNat (os.length + 1) := by
    rw [h.version, UInt64.ofNat_add]
    rfl
  have drawn : s.draw (o.born (uid os.length)) =
      o.planted (uid os.length) (os.length + 1) := by
    rw [draw, next]
    rfl
  rw [← drawn]
  unfold Store.create
  rw [h.get?_eq_none.2 fresh]
  exact ⟨_, rfl⟩

end Sown

end Store
end Tenancy
