import Tenancy.Proofs.Store.Versions

/-! The changes that a store has made known are all there is to it: replayed in their order they
give what is stored. A call that changes an object makes known one change, with what was there
before; a call that fails makes none known and draws no version. -/

namespace Tenancy

variable {S : Type}

inductive Access (S : Type) where
  | get (key : Key)
  | list
  | write (w : Write S)

def Access.write? : Access S → Option (Write S)
  | get _ | list => none
  | write w => some w

namespace Change

def replay (objects : Std.ExtTreeMap Key (Resource S)) : Change S → Std.ExtTreeMap Key (Resource S)
  | created o | updated _ o => objects.insert o.key o
  | deleted o => objects.erase o.key
  | generic _ => objects

def Follows (s : Store S) : Change S → Prop
  | created o => s.get? o.key = none
  | updated old new => s.get? new.key = some old
  | deleted o => s.get? o.key ≠ none
  | generic _ => False

end Change

namespace Store

/-! ### Marked objects -/

def Guarded (s : Store S) : Prop :=
  ∀ k o, s.get? k = some o → o.wasDeleted = true → o.metadata.finalizers ≠ []

variable {s t : Store S}

theorem guarded_empty : (empty : Store S).Guarded := by
  intro k o stored
  rw [get?_empty] at stored
  cases stored

theorem Guarded.put (h : s.Guarded) {n : Resource S}
    (hn : n.wasDeleted = true → n.metadata.finalizers ≠ []) : (s.put n).Guarded := by
  intro k o stored
  rw [get?_put] at stored
  split at stored
  · cases stored
    exact hn
  · exact h k o stored

theorem Guarded.remove (h : s.Guarded) (key : Key) : (s.remove key).Guarded := by
  intro k o stored
  rw [get?_remove] at stored
  split at stored
  · cases stored
  · exact h k o stored

variable [ResourceKind S] {w : Write S} {c : Option (Change S)}

theorem Effect.guarded (h : Effect s w c t) (guarded : s.Guarded) : t.Guarded := by
  cases h with
  | taken | missing | pending | stale => exact guarded
  | created =>
    refine guarded.put fun marked => ?_
    cases marked
  | marked stored finalizers => exact guarded.put fun _ => finalizers
  | deleted | released => exact guarded.remove _
  | updated stored current stays =>
    refine guarded.put fun marked => stays.resolve_left ?_
    exact Option.isSome_iff_ne_none.1 marked
  | @statusUpdated o d stored =>
    refine guarded.put fun marked => ?_
    exact guarded o.key d stored marked

theorem change_of_marked (guarded : s.Guarded) {key : Key} {o : Resource S}
    (stored : s.get? key = some o) (marked : o.wasDeleted = true) (now : Instant) :
    (s.write (.delete now key)).change = none := by
  have finalizers : o.metadata.finalizers.isEmpty = false :=
    List.isEmpty_eq_false_iff.2 (guarded key o stored marked)
  simp only [write, delete, stored, finalizers, marked]
  rfl

/-! ### One change -/

theorem Effect.replay (h : Effect s w c t) (keyed : s.Keyed) :
    c.toList.foldl Change.replay s.objects = t.objects := by
  cases h with
  | taken | missing | pending | stale => rfl
  | created | marked | updated | released | statusUpdated => rfl
  | @deleted now key d stored =>
    have key : d.key = key := keyed key d stored
    exact congrArg s.objects.erase key

theorem Effect.follows (h : Effect s w c t) (keyed : s.Keyed) {e : Change S} (hc : c = some e) :
    e.Follows s := by
  have touch := h.touch keyed e.key
  subst hc
  generalize stored : s.get? e.key = before at touch
  generalize t.get? e.key = after at touch
  cases touch with
  | kept elsewhere => exact absurd rfl elsewhere
  | created | marked | updated | statusUpdated => exact stored
  | deleted | released =>
    intro absent
    cases stored.symm.trans absent

/-! ### Calls -/

def access (s : Store S) : Access S → Written S Unit
  | .get key => Written.mute ⟨s.get key, s, none⟩
  | .list => Written.mute ⟨.ok s.list, s, none⟩
  | .write w => s.write w

theorem access_of_quiet {a : Access S} (quiet : (s.access a).change = none) :
    (s.access a).store = s := by
  cases a with
  | get | list => rfl
  | write w => exact (s.effect_write w).idle quiet

theorem access_of_refused {a : Access S} (refused : (s.access a).answer.isOk = false) :
    (s.access a).change = none := by
  cases a with
  | get | list => rfl
  | write w => exact change_of_refused refused

end Store

namespace History

variable [ResourceKind S]

def access (h : History S) (a : Access S) : History S :=
  ⟨(h.store.access a).store, h.log ++ (h.store.access a).change.toList⟩

def accessed (as : List (Access S)) : History S := as.foldl access empty

theorem accessed_concat (as : List (Access S)) (a : Access S) :
    accessed (as ++ [a]) = (accessed as).access a :=
  List.foldl_concat access empty a as

theorem access_eq (h : History S) (a : Access S) : h.access a = a.write?.elim h h.write := by
  cases a with
  | get | list => exact congrArg (History.mk h.store) (List.append_nil h.log)
  | write => rfl

theorem accessed_eq_after (as : List (Access S)) :
    accessed as = after (as.filterMap (·.write?)) := by
  induction as using List.reverseRecOn with
  | nil => rfl
  | append_singleton as a ih =>
    rw [accessed_concat, access_eq, ih, List.filterMap_append, List.filterMap_cons]
    cases a.write? with
    | none => exact congrArg after (List.append_nil _).symm
    | some w => exact (after_concat _ w).symm

theorem guarded_after (ws : List (Write S)) : (after ws).store.Guarded := by
  induction ws using List.reverseRecOn with
  | nil => exact Store.guarded_empty
  | append_singleton ws w ih =>
    rw [after_concat]
    exact ((after ws).store.effect_write w).guarded ih

theorem replay_after (ws : List (Write S)) :
    (after ws).log.foldl Change.replay ∅ = (after ws).store.objects := by
  induction ws using List.reverseRecOn with
  | nil => rfl
  | append_singleton ws w ih =>
    rw [after_concat, write, List.foldl_append, ih]
    exact ((after ws).store.effect_write w).replay (keyed_after ws)

/-- What was made known is what is stored. A call that changes an object makes known one change,
about what was there; a call that fails, or asks again for a deletion, changes nothing at all. -/
theorem log_is_store (as : List (Access S)) :
    (accessed as).log.foldl Change.replay ∅ = (accessed as).store.objects ∧
    (∀ a, (accessed (as ++ [a])).store.objects ≠ (accessed as).store.objects →
      ∃ e, (accessed (as ++ [a])).log = (accessed as).log ++ [e] ∧ e.Follows (accessed as).store) ∧
    (∀ a, ((accessed as).store.access a).answer.isOk = false →
      accessed (as ++ [a]) = accessed as) ∧
    ∀ now key o, (accessed as).store.get? key = some o → o.wasDeleted = true →
      accessed (as ++ [.write (.delete now key)]) = accessed as := by
  have quiet {a : Access S} (h : ((accessed as).store.access a).change = none) :
      accessed (as ++ [a]) = accessed as := by
    rw [accessed_concat, access, h, Store.access_of_quiet h]
    exact congrArg (mk (accessed as).store) (List.append_nil (accessed as).log)
  have reached : accessed as = after (as.filterMap (·.write?)) := accessed_eq_after as
  refine ⟨?_, ?_, ?_, ?_⟩
  · rw [reached]
    exact replay_after _
  · intro a changed
    have keyed : (accessed as).store.Keyed := reached ▸ keyed_after _
    cases hc : ((accessed as).store.access a).change with
    | none => exact absurd (congrArg (·.store.objects) (quiet hc)) changed
    | some e =>
      refine ⟨e, by rw [accessed_concat, access, hc]; rfl, ?_⟩
      cases a with
      | get | list => cases hc
      | write w => exact ((accessed as).store.effect_write w).follows keyed hc
  · intro a refused
    exact quiet (Store.access_of_refused refused)
  · intro now key o stored marked
    have guarded : (accessed as).store.Guarded := reached ▸ guarded_after _
    exact quiet (Store.change_of_marked guarded stored marked now)

def arrival : Access OrganizationSpec :=
  .write (.create ⟨1⟩ ((Resource.new "a" "b").withFinalizer "f"))

def farewell : Access OrganizationSpec := .write (.delete .epoch ⟨"a", "b"⟩)

theorem log_is_store_farewell :
    ∃ (o : Organization) (e : Change OrganizationSpec),
      (accessed [arrival]).log.foldl Change.replay ∅ = (accessed [arrival]).store.objects ∧
      (accessed [arrival, farewell]).log = (accessed [arrival]).log ++ [e] ∧
      e.Follows (accessed [arrival]).store ∧
      (accessed [arrival, farewell]).store.get? ⟨"a", "b"⟩ = some o ∧ o.wasDeleted = true ∧
      accessed [arrival, farewell, farewell] = accessed [arrival, farewell] ∧
      accessed [arrival, .get ⟨"a", "c"⟩] = accessed [arrival] := by
  have marks : (accessed ([arrival] ++ [farewell])).store.objects ≠
      (accessed [arrival]).store.objects := by
    intro same
    have : (accessed [arrival, farewell]).store.objects[(⟨"a", "b"⟩ : Key)]?.map (·.wasDeleted) =
        (accessed [arrival]).store.objects[(⟨"a", "b"⟩ : Key)]?.map (·.wasDeleted) :=
      congrArg (fun m => m[(⟨"a", "b"⟩ : Key)]?.map (·.wasDeleted)) same
    exact absurd this (by decide +kernel)
  have refused : ((accessed [arrival]).store.access (.get ⟨"a", "c"⟩)).answer.isOk = false := by
    decide +kernel
  obtain ⟨replayed, changes, fails, -⟩ := log_is_store [arrival]
  obtain ⟨e, log, follows⟩ := changes farewell marks
  obtain ⟨-, -, -, again⟩ := log_is_store [arrival, farewell]
  refine ⟨_, e, replayed, log, follows, rfl, rfl, ?_, fails _ refused⟩
  exact again .epoch ⟨"a", "b"⟩ _ rfl rfl

end History
end Tenancy
