import Mathlib.Data.UInt
import Tenancy.Proofs.Store.Effect

/-! Changes that can be passed over. A change that left the generation as it was has left the mark
alone, and the specification as far as equality goes; and none but a write of the status touched
what was observed. -/

namespace Tenancy

variable {S : Type}

namespace Change

theorem generationChanged_iff {o n : Resource S} (key : o.key = n.key) :
    (updated o n).generationChanged = true ↔
      n.metadata.generation ≠ o.metadata.generation := by
  rw [generationChanged, key, bne_self_eq_false, Bool.false_or, bne_iff_ne, ne_comm]

theorem generationChanged_of_same {o n : Resource S} (key : o.key = n.key)
    (generation : n.metadata.generation = o.metadata.generation) :
    (updated o n).generationChanged = false :=
  Bool.eq_false_iff.2 fun changed => (generationChanged_iff key).1 changed generation

end Change

def Resource.Like [BEq S] (c d : Resource S) : Prop :=
  c.wasDeleted = d.wasDeleted ∧ (c.spec == d.spec) = true

namespace Resource.Like

variable [BEq S] [EquivBEq S] {c d e : Resource S}

theorem rfl : c.Like c := ⟨Eq.refl _, BEq.refl _⟩

theorem trans (h : c.Like d) (h' : d.Like e) : c.Like e := ⟨h.1.trans h'.1, BEq.trans h.2 h'.2⟩

theorem option_refl (o : Option (Resource S)) : Option.Rel Like o o := by
  cases o with
  | none => exact .none
  | some c => exact .some rfl

theorem option_trans {o p q : Option (Resource S)} (h : Option.Rel Like o p)
    (h' : Option.Rel Like p q) : Option.Rel Like o q := by
  cases h with
  | none =>
    cases h'
    exact .none
  | some h =>
    cases h' with
    | some h' => exact .some (h.trans h')

end Resource.Like

inductive Resource.Ages [ResourceKind S] (w : Write S) (o n : Resource S) : Prop
  | same (spec : (o.spec == n.spec) = true)
    (generation : n.metadata.generation = o.metadata.generation)
    (mark : n.wasDeleted = o.wasDeleted)
  | respecified (u : Resource S) (update : w = .update u) (spec : (o.spec == n.spec) = false)
    (generation : n.metadata.generation = o.metadata.generation + 1)
    (mark : n.wasDeleted = o.wasDeleted)
  | marked (spec : (o.spec == n.spec) = true)
    (generation : n.metadata.generation = o.metadata.generation + 1)
    (unmarked : o.wasDeleted = false) (marked : n.wasDeleted = true)

namespace Resource.Ages

variable [ResourceKind S]

theorem generationChanged {w : Write S} {o n : Resource S} (h : o.Ages w n)
    (key : o.key = n.key) :
    (Change.updated o n).generationChanged = true ↔
      (o.spec == n.spec) = false ∨ o.wasDeleted = false ∧ n.wasDeleted = true := by
  rw [Change.generationChanged_iff key]
  cases h with
  | same spec generation mark => simp [spec, generation, mark]
  | respecified u update spec generation mark => simp [spec, generation]
  | marked spec generation unmarked marked => simp [generation, unmarked, marked]

theorem like {w : Write S} {o n : Resource S} (h : o.Ages w n) (key : o.key = n.key)
    (quiet : (Change.updated o n).generationChanged = false) : o.Like n := by
  cases h with
  | same spec generation mark => exact ⟨mark.symm, spec⟩
  | respecified u update spec generation | marked spec generation =>
    have moved : n.metadata.generation ≠ o.metadata.generation := by simp [generation]
    cases quiet.symm.trans ((Change.generationChanged_iff key).2 moved)

end Resource.Ages

namespace Store

variable {s t : Store S} {k : Key}

theorem Turn.ne (h : Turn s (some k) t) : t ≠ s := by
  intro same
  cases h with
  | put n =>
    have : s.version + 1 = s.version := congrArg Store.version same
    simp at this
  | remove stored =>
    have : (s.remove k).get? k = s.get? k := congrArg (·.get? k) same
    rw [get?_remove, if_pos rfl, stored] at this
    cases this

variable [ResourceKind S] {w : Write S} {c : Option (Change S)}

theorem write_ne (keyed : s.Keyed) (h : (s.write w).change ≠ none) : (s.write w).store ≠ s := by
  have turn := turn_write keyed w
  obtain ⟨c, hc⟩ := Option.ne_none_iff_exists'.1 h
  rw [hc] at turn
  exact turn.ne

theorem Effect.stored_of_updated {o n : Resource S} (h : Effect s w c t) (keyed : s.Keyed)
    (hc : c = some (.updated o n)) : s.get? n.key = some o ∧ t.get? n.key = some n := by
  have touch := h.touch keyed n.key
  subst hc
  generalize s.get? n.key = before at touch ⊢
  generalize t.get? n.key = after at touch ⊢
  cases touch with
  | kept elsewhere => exact absurd rfl elsewhere
  | marked | updated | statusUpdated => exact ⟨rfl, rfl⟩

theorem Effect.ages [ReflBEq S] {o n : Resource S} (h : Effect s w c t) (keyed : s.Keyed)
    (ho : s.get? k = some o) (hn : t.get? k = some n) : o.Ages w n := by
  have touch := h.touch keyed k
  rw [ho, hn] at touch
  cases touch with
  | kept | statusUpdated => exact .same (BEq.refl _) rfl rfl
  | marked guarded unmarked =>
    refine .marked (BEq.refl _) rfl ?_ rfl
    exact Option.isSome_eq_false_iff.2 (Option.isNone_iff_eq_none.2 unmarked)
  | @updated u =>
    have generation : (s.draw (revise o u)).metadata.generation =
      if o.spec == u.spec then o.metadata.generation else o.metadata.generation + 1 := rfl
    cases spec : o.spec == u.spec with
    | true => exact .same spec (by rw [generation, spec]; rfl) rfl
    | false => exact .respecified u rfl spec (by rw [generation, spec]; rfl) rfl

variable [EquivBEq S]

theorem Effect.quiet (h : Effect s w c t) (keyed : s.Keyed) (hk : c.map (·.key) = some k)
    (quiet : ∀ d, c = some d → d.generationChanged = false) :
    ∃ o n, s.get? k = some o ∧ t.get? k = some n ∧ o.Like n ∧
      (n.status = o.status ∨ ∃ x, w = .updateStatus x ∧ x.key = k) := by
  have like {o n : Resource S} (hc : c = some (.updated o n)) : o.Like n := by
    obtain ⟨ho, hn⟩ := h.stored_of_updated keyed hc
    exact (h.ages keyed ho hn).like (keyed _ _ ho) (quiet _ hc)
  have touch := h.touch keyed k
  generalize s.get? k = before at touch ⊢
  generalize t.get? k = after at touch ⊢
  cases touch with
  | kept elsewhere => exact absurd hk elsewhere
  | created | deleted | released => cases quiet _ rfl
  | marked | updated => exact ⟨_, _, rfl, rfl, like rfl, .inl rfl⟩
  | @statusUpdated u _ key => exact ⟨_, _, rfl, rfl, like rfl, .inr ⟨u, rfl, key⟩⟩

/-- Under each key all stays alike but for changes that are not to be passed over. -/
theorem like_of_quiet (keyed : s.Keyed)
    (quiet : ∀ d, (s.write w).change = some d → d.key = k → d.generationChanged = false) :
    Option.Rel Resource.Like (s.get? k) ((s.write w).store.get? k) := by
  by_cases hk : (s.write w).change.map (·.key) = some k
  · obtain ⟨d, hd, rfl⟩ := Option.map_eq_some_iff.1 hk
    obtain ⟨o, n, ho, hn, like, -⟩ := (s.effect_write w).quiet keyed hk fun e he => by
      cases hd.symm.trans he
      exact quiet d hd rfl
    rw [ho, hn]
    exact .some like
  · rw [(turn_write keyed w).get?_eq hk]
    exact Resource.Like.option_refl _

theorem observed_of_quiet (keyed : s.Keyed) (hw : ∀ o, w = .updateStatus o → o.key ≠ k)
    (quiet : ∀ d, (s.write w).change = some d → d.key = k → d.generationChanged = false) :
    (s.get? k).map (·.status.observed) = ((s.write w).store.get? k).map (·.status.observed) := by
  by_cases hk : (s.write w).change.map (·.key) = some k
  · obtain ⟨d, hd, rfl⟩ := Option.map_eq_some_iff.1 hk
    obtain ⟨o, n, ho, hn, -, same | ⟨x, hx, key⟩⟩ :=
      (s.effect_write w).quiet keyed hk fun e he => by
        cases hd.symm.trans he
        exact quiet d hd rfl
    · simp [ho, hn, same]
    · exact absurd key (hw x hx)
  · rw [(turn_write keyed w).get?_eq hk]

end Store
end Tenancy
