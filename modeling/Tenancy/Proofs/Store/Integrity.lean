import Tenancy.Proofs.Store.Generation
import Tenancy.Proofs.Store.Listing

/-! What a store keeps to, whatever objects clients hand in. Every object stands under its own key,
with a version that no other has and the identifier that it was created with; a marked one has a
finalizer left; and the list shows each of them once. -/

namespace Tenancy

variable {S : Type}

namespace Store

variable {s t : Store S} {k : Key} {o n : Resource S}

theorem list_iff (keyed : s.Keyed) : s.get? k = some o ↔ o ∈ s.list ∧ o.key = k := by
  constructor
  · intro stored
    have key := keyed k o stored
    exact ⟨(mem_list keyed).2 (key.symm ▸ stored), key⟩
  · rintro ⟨listed, rfl⟩
    exact (mem_list keyed).1 listed

variable [ResourceKind S] {w : Write S} {c : Option (Change S)}

theorem Effect.grows (h : Effect s w c t) (keyed : s.Keyed) (ho : s.get? k = some o)
    (hn : t.get? k = some n) :
    n.metadata.uid = o.metadata.uid ∧
      (n.metadata.generation = o.metadata.generation ∨
        n.metadata.generation = o.metadata.generation + 1) := by
  have touch := h.touch keyed k
  rw [ho, hn] at touch
  cases touch with
  | kept | statusUpdated => exact ⟨rfl, .inl rfl⟩
  | marked => exact ⟨rfl, .inr rfl⟩
  | @updated u =>
    refine ⟨rfl, ?_⟩
    show (revise o u).metadata.generation = _ ∨ _
    unfold revise
    dsimp only
    split
    · exact .inl rfl
    · exact .inr rfl

end Store

namespace History

open Store

variable [ResourceKind S]

theorem Lives.identified {k : Key} {before rest : List (Write S)} {uid : Uid} {x o : Resource S}
    (lives : Lives k before uid x rest) (room : rest.length + 1 < 2 ^ 64)
    (stored : (after (before ++ .create uid x :: rest)).store.get? k = some o) :
    o.metadata.uid = some uid ∧ 1 ≤ o.metadata.generation.toNat := by
  have counted := lives.induction (P := fun rest o => rest.length + 1 < 2 ^ 64 →
    o.metadata.uid = some uid ∧ 1 ≤ o.metadata.generation.toNat ∧
      o.metadata.generation.toNat ≤ rest.length + 1)
    (fun _ => ⟨rfl, Nat.le_refl 1, Nat.le_refl 1⟩) ?_ stored room
  · exact ⟨counted.1, counted.2.1⟩
  intro rest w o n ho hn ih room
  rw [List.length_append, List.length_singleton] at room ⊢
  obtain ⟨identifier, pos, le⟩ := ih (by omega)
  have effect := (after (before ++ .create uid x :: rest)).store.effect_write w
  obtain ⟨same, generation | generation⟩ := effect.grows (keyed_after _) ho hn
  · rw [same, generation]
    exact ⟨identifier, pos, by omega⟩
  · -- the generation has not turned over, since every write moves it by one at most
    have next : n.metadata.generation.toNat = o.metadata.generation.toNat + 1 := by
      rw [generation, UInt64.toNat_add]
      exact Nat.mod_eq_of_lt (by change _ + 1 < _; omega)
    rw [same, next]
    exact ⟨identifier, by omega, by omega⟩

/-- What is true of a store after any writes that are not too many to be counted. -/
theorem integrity {ws : List (Write S)} (room : ws.length < 2 ^ 64) :
    (after ws).store.Numbered ∧ (after ws).store.Guarded ∧
    (∀ k o, (after ws).store.get? k = some o →
      1 ≤ o.metadata.generation.toNat ∧
      ∃ before uid x rest, ws = before ++ .create uid x :: rest ∧ Lives k before uid x rest ∧
        o.metadata.uid = some uid) ∧
    (∀ w k, (after ws).store.get? k = none → (after (ws ++ [w])).store.get? k ≠ none →
      ∃ uid x, w = .create uid x ∧ x.key = k) ∧
    (∀ k o, (after ws).store.get? k = some o ↔ o ∈ (after ws).store.list ∧ o.key = k) ∧
    (after ws).store.list.Pairwise fun a b => compare a.key b.key = .lt := by
  have keyed := keyed_after ws
  have numbered := (numbered_and_counted ((log_length_le ws).trans_lt room)).1
  refine ⟨numbered, guarded_after ws, fun k o stored => ?_, fun w k absent present => ?_,
    fun k o => list_iff keyed, ordered_list keyed⟩
  · obtain ⟨before, uid, x, rest, rfl, lives⟩ := lives_of_stored ws stored
    rw [List.length_append, List.length_cons] at room
    obtain ⟨identifier, pos⟩ := lives.identified (by omega) stored
    exact ⟨pos, before, uid, x, rest, rfl, lives, identifier⟩
  · rw [after_concat] at present
    obtain ⟨n, stored⟩ := Option.ne_none_iff_exists'.1 present
    obtain ⟨uid, x, created, key, -⟩ :=
      ((after ws).store.effect_write w).created_of_absent keyed absent stored
    exact ⟨uid, x, created, key⟩

def forged : Organization :=
  { (Resource.new "a" "b" : Organization) with
    metadata := { Metadata.new "a" "b" with
      uid := some ⟨9⟩, resourceVersion := 7, generation := 0, deletedAt := some .epoch
      finalizers := ["f"] } }

def forgeries : List (Write OrganizationSpec) :=
  [.create ⟨1⟩ forged, .delete .epoch ⟨"a", "b"⟩,
    .update { forged with
      metadata := { forged.metadata with resourceVersion := 2, deletedAt := none } }]

theorem integrity_forged :
    forgeries.length < 2 ^ 64 ∧ (after forgeries).store.Numbered ∧
      ∃ o, (after forgeries).store.get? ⟨"a", "b"⟩ = some o ∧ o.version = 3 ∧
        o.metadata.finalizers ≠ [] ∧ 1 ≤ o.metadata.generation.toNat ∧
        o ∈ (after forgeries).store.list ∧
        ∃ before uid x rest, forgeries = before ++ .create uid x :: rest ∧
          Lives ⟨"a", "b"⟩ before uid x rest ∧ o.metadata.uid = some uid := by
  have room : forgeries.length < 2 ^ 64 := by decide
  obtain ⟨o, stored, version, marked⟩ : ∃ o, (after forgeries).store.get? ⟨"a", "b"⟩ = some o ∧
      o.version = 3 ∧ o.wasDeleted = true := ⟨_, rfl, rfl, rfl⟩
  obtain ⟨numbered, guarded, born, -, listed, -⟩ := integrity room
  obtain ⟨pos, life⟩ := born _ o stored
  exact ⟨room, numbered, o, stored, version, guarded _ o stored marked, pos,
    ((listed _ o).1 stored).1, life⟩

end History
end Tenancy
