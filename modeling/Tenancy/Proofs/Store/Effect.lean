import Mathlib.Logic.Basic
import Tenancy.Store

/-! What a write of a client comes to. A write that is accepted and changes something draws the next
version for one object, or removes one object; it makes known one change, which is about that key.
Every other write leaves the store as it was. -/

namespace Tenancy

inductive Write (S : Type) where
  | create (uid : Uid) (o : Resource S)
  | delete (now : Instant) (key : Key)
  | update (o : Resource S)
  | updateStatus (o : Resource S)

variable {S : Type}

def Write.key : Write S → Key
  | create _ o | update o | updateStatus o => o.key
  | delete _ key => key

def Write.held? : Write S → Option (Resource S)
  | update o | updateStatus o => some o
  | create _ _ | delete _ _ => none

def Written.mute {α : Type} (w : Written S α) : Written S Unit :=
  ⟨w.answer.map fun _ => (), w.store, w.change⟩

theorem Written.isOk_mute {α : Type} (w : Written S α) : w.mute.answer.isOk = w.answer.isOk := by
  unfold mute
  cases w.answer <;> rfl

namespace Resource

def born (o : Resource S) (uid : Uid) : Resource S :=
  { o with metadata := { o.metadata with uid := some uid, generation := 1, deletedAt := none } }

def marked (o : Resource S) (now : Instant) : Resource S :=
  { o with metadata :=
    { o.metadata with deletedAt := some now, generation := o.metadata.generation + 1 } }

def withStatus (o : Resource S) (status : Status) : Resource S := { o with status }

structure Becomes (c d : Resource S) : Prop where
  uid : d.metadata.uid = c.metadata.uid
  mark : ∀ at_, c.metadata.deletedAt = some at_ → d.metadata.deletedAt = some at_

theorem Becomes.rfl {c : Resource S} : c.Becomes c := ⟨Eq.refl _, fun _ h => h⟩

theorem Becomes.trans {c d e : Resource S} (h : c.Becomes d) (h' : d.Becomes e) : c.Becomes e :=
  ⟨h'.uid.trans h.uid, fun at_ ha => h'.mark at_ (h.mark at_ ha)⟩

end Resource

/-- An update that takes a finalizer from the object of which the writer holds the version. -/
def Write.Strips (w : Write S) (c : Resource S) (f : String) : Prop :=
  ∃ o, w = .update o ∧ o.key = c.key ∧ o.version = c.version ∧ f ∉ o.metadata.finalizers

namespace Store

/-! ### Look-ups -/

theorem get?_empty (k : Key) : (empty : Store S).get? k = none := by
  unfold get? empty
  exact Std.ExtTreeMap.getElem?_empty

theorem get?_put (s : Store S) (o : Resource S) (k : Key) :
    (s.put o).get? k = if o.key = k then some o else s.get? k := by
  unfold get? put
  rw [Std.ExtTreeMap.getElem?_insert]
  simp only [Std.LawfulEqCmp.compare_eq_iff_eq]

theorem get?_put_self (s : Store S) (o : Resource S) : (s.put o).get? o.key = some o := by
  rw [get?_put, if_pos rfl]

theorem get?_put_of_ne {s : Store S} {o : Resource S} {k : Key} (h : o.key ≠ k) :
    (s.put o).get? k = s.get? k := by
  rw [get?_put, if_neg h]

theorem get?_remove (s : Store S) (k x : Key) :
    (s.remove k).get? x = if k = x then none else s.get? x := by
  unfold get? remove
  rw [Std.ExtTreeMap.getElem?_erase]
  simp only [Std.LawfulEqCmp.compare_eq_iff_eq]

def Keyed (s : Store S) : Prop := ∀ k o, s.get? k = some o → o.key = k

theorem keyed_empty : (empty : Store S).Keyed := fun k o h => by
  rw [get?_empty] at h
  cases h

/-! ### The ways of a write -/

inductive Turn (s : Store S) : Option Key → Store S → Prop
  | rest : Turn s none s
  | put (n : Resource S) (next : n.version = s.version + 1) : Turn s (some n.key) (s.put n)
  | remove {k : Key} {c : Resource S} (stored : s.get? k = some c) : Turn s (some k) (s.remove k)

theorem Turn.keyed {s t : Store S} {k : Option Key} (h : Turn s k t) (keyed : s.Keyed) :
    t.Keyed := by
  intro x o ho
  cases h with
  | rest => exact keyed x o ho
  | put n =>
    rw [get?_put] at ho
    split at ho
    · cases ho
      assumption
    · exact keyed x o ho
  | remove =>
    rw [get?_remove] at ho
    split at ho
    · cases ho
    · exact keyed x o ho

theorem Turn.get?_eq {s t : Store S} {k : Option Key} (h : Turn s k t) {x : Key} (hx : k ≠ some x) :
    t.get? x = s.get? x := by
  cases h with
  | rest => rfl
  | put n => exact get?_put_of_ne fun he => hx (congrArg some he)
  | remove => rw [get?_remove, if_neg fun he => hx (congrArg some he)]

/-! ### Writes -/

variable [ResourceKind S]

theorem get_eq_ok {s : Store S} {k : Key} {o : Resource S} :
    s.get k = .ok o ↔ s.get? k = some o := by
  unfold get
  cases s.get? k <;> simp

theorem held_eq_ok {s : Store S} {o c : Resource S} :
    s.held o = .ok c ↔ s.get? o.key = some c ∧ o.version = c.version := by
  unfold held
  cases s.get? o.key with
  | none => simp
  | some d =>
    dsimp only
    split <;> simp_all
    rintro rfl
    assumption

theorem version_ne_of_held {s : Store S} {o : Resource S} {e : StoreError} (h : s.held o = .error e)
    (c : Resource S) (hc : s.get? o.key = some c) : o.version ≠ c.version := by
  intro hv
  rw [held_eq_ok.2 ⟨hc, hv⟩] at h
  cases h

def write (s : Store S) : Write S → Written S Unit
  | .create uid o => (s.create uid o).mute
  | .delete now key => (s.delete now key).mute
  | .update o => (s.update o).mute
  | .updateStatus o => (s.updateStatus o).mute

inductive Effect (s : Store S) : Write S → Option (Change S) → Store S → Prop
  | taken {uid o} (present : s.get? o.key ≠ none) : Effect s (.create uid o) none s
  | missing {now key} (absent : s.get? key = none) : Effect s (.delete now key) none s
  | pending {now key c} (stored : s.get? key = some c) (guarded : c.metadata.finalizers ≠ [])
      (marked : c.metadata.deletedAt ≠ none) : Effect s (.delete now key) none s
  | stale {w o} (held : w.held? = some o)
      (stale : ∀ c, s.get? o.key = some c → o.version ≠ c.version) : Effect s w none s
  | created {uid o} (absent : s.get? o.key = none) :
    Effect s (.create uid o) (some (.created (s.draw (o.born uid)))) (s.put (s.draw (o.born uid)))
  | marked {now key c} (stored : s.get? key = some c) (guarded : c.metadata.finalizers ≠ [])
      (unmarked : c.metadata.deletedAt = none) :
    Effect s (.delete now key) (some (.updated c (s.draw (c.marked now))))
      (s.put (s.draw (c.marked now)))
  | deleted {now key c} (stored : s.get? key = some c) (bare : c.metadata.finalizers = []) :
    Effect s (.delete now key) (some (.deleted c)) (s.remove key)
  | updated {o c} (stored : s.get? o.key = some c) (current : o.version = c.version)
      (stays : c.metadata.deletedAt = none ∨ o.metadata.finalizers ≠ []) :
    Effect s (.update o) (some (.updated c (s.draw (revise c o)))) (s.put (s.draw (revise c o)))
  | released {o c} (stored : s.get? o.key = some c) (current : o.version = c.version)
      (marked : c.metadata.deletedAt ≠ none) (bare : o.metadata.finalizers = []) :
    Effect s (.update o) (some (.deleted (revise c o))) (s.remove o.key)
  | statusUpdated {o c} (stored : s.get? o.key = some c) (current : o.version = c.version) :
    Effect s (.updateStatus o) (some (.updated c (s.draw (c.withStatus o.status))))
      (s.put (s.draw (c.withStatus o.status)))

theorem effect_create (s : Store S) (uid : Uid) (o : Resource S) :
    Effect s (.create uid o) (s.create uid o).change (s.create uid o).store := by
  unfold create
  split
  · rename_i present
    exact .taken (by simp [present])
  · rename_i absent
    exact .created absent

theorem effect_delete (s : Store S) (now : Instant) (key : Key) :
    Effect s (.delete now key) (s.delete now key).change (s.delete now key).store := by
  unfold delete
  split
  · rename_i absent
    exact .missing absent
  · rename_i c stored
    split
    · rename_i bare
      exact .deleted stored (List.isEmpty_iff.1 bare)
    · rename_i guarded
      have guarded : c.metadata.finalizers ≠ [] := fun h => guarded (by rw [h]; rfl)
      split
      · rename_i marked
        exact .pending stored guarded (Option.isSome_iff_ne_none.1 marked)
      · rename_i unmarked
        refine .marked stored guarded ?_
        simpa [Resource.wasDeleted, Metadata.wasDeleted] using unmarked

theorem effect_update (s : Store S) (o : Resource S) :
    Effect s (.update o) (s.update o).change (s.update o).store := by
  unfold update
  split
  · rename_i held
    exact .stale rfl (version_ne_of_held held)
  · rename_i c held
    obtain ⟨stored, current⟩ := held_eq_ok.1 held
    dsimp only
    split
    · rename_i h
      rw [Bool.and_eq_true, List.isEmpty_iff] at h
      exact .released stored current (Option.isSome_iff_ne_none.1 h.1) h.2
    · rename_i h
      rw [Bool.and_eq_true, List.isEmpty_iff, not_and_or] at h
      refine .updated stored current (h.imp_left fun h => ?_)
      simpa [Resource.wasDeleted, Metadata.wasDeleted, revise] using h

theorem effect_updateStatus (s : Store S) (o : Resource S) :
    Effect s (.updateStatus o) (s.updateStatus o).change (s.updateStatus o).store := by
  unfold updateStatus
  split
  · rename_i held
    exact .stale rfl (version_ne_of_held held)
  · rename_i c held
    obtain ⟨stored, current⟩ := held_eq_ok.1 held
    exact .statusUpdated stored current

theorem effect_write (s : Store S) (w : Write S) :
    Effect s w (s.write w).change (s.write w).store := by
  cases w with
  | create uid o => exact s.effect_create uid o
  | delete now key => exact s.effect_delete now key
  | update o => exact s.effect_update o
  | updateStatus o => exact s.effect_updateStatus o

theorem Effect.turn {s t : Store S} {w : Write S} {c : Option (Change S)} (h : Effect s w c t)
    (keyed : s.Keyed) : Turn s (c.map (·.key)) t := by
  cases h with
  | taken | missing | pending | stale => exact .rest
  | created | marked | updated | statusUpdated => exact .put _ rfl
  | @deleted now key c stored bare =>
    have : (some (Change.deleted c)).map (·.key) = some key := congrArg some (keyed key c stored)
    rw [this]
    exact .remove stored
  | released stored => exact .remove stored

theorem turn_write {s : Store S} (keyed : s.Keyed) (w : Write S) :
    Turn s ((s.write w).change.map (·.key)) (s.write w).store :=
  (s.effect_write w).turn keyed

/-! ### Accepted writes -/

theorem refused_create {s : Store S} {o c : Resource S} (stored : s.get? o.key = some c)
    (uid : Uid) :
    (s.create uid o).answer = .error (.alreadyExists (ResourceKind.title S) o.key.text) := by
  unfold create
  rw [stored]
  rfl

theorem isOk_update_iff {s : Store S} {o : Resource S} :
    (s.update o).answer.isOk ↔ ∃ c, s.get? o.key = some c ∧ o.version = c.version := by
  simp only [← held_eq_ok]
  unfold update
  cases h : s.held o with
  | error e => simp [refuse, Except.isOk, Except.toBool]
  | ok c =>
    dsimp only
    split <;> simp [Except.isOk, Except.toBool]

theorem isOk_updateStatus_iff {s : Store S} {o : Resource S} :
    (s.updateStatus o).answer.isOk ↔ ∃ c, s.get? o.key = some c ∧ o.version = c.version := by
  simp only [← held_eq_ok]
  unfold updateStatus
  cases h : s.held o with
  | error e => simp [refuse, Except.isOk, Except.toBool]
  | ok c => simp [Except.isOk, Except.toBool]

theorem isOk_write_iff {s : Store S} {w : Write S} {o : Resource S} (h : w.held? = some o) :
    (s.write w).answer.isOk ↔ ∃ c, s.get? o.key = some c ∧ o.version = c.version := by
  cases w with
  | create | delete => cases h
  | update =>
    cases h
    rw [← isOk_update_iff, write, Written.isOk_mute]
  | updateStatus =>
    cases h
    rw [← isOk_updateStatus_iff, write, Written.isOk_mute]

theorem update_answer {s : Store S} {o p : Resource S} (h : (s.update o).answer = .ok p) :
    p.key = o.key ∧ p.spec = o.spec := by
  unfold update at h
  split at h
  · cases h
  · dsimp only at h
    split at h <;> cases h <;> exact ⟨rfl, rfl⟩

theorem get?_updateStatus {s : Store S} {o p : Resource S} (keyed : s.Keyed)
    (h : (s.updateStatus o).answer = .ok p) :
    ∃ c, s.get? o.key = some c ∧
      (s.updateStatus o).store.get? o.key = some (s.draw (c.withStatus o.status)) := by
  unfold updateStatus at h ⊢
  split at h
  · cases h
  · rename_i c held
    have stored := (held_eq_ok.1 held).1
    have key : (s.draw (c.withStatus o.status)).key = o.key := keyed o.key c stored
    exact ⟨c, stored, key ▸ get?_put_self s _⟩

theorem key_change_of_isOk {s : Store S} {w : Write S} {o : Resource S} (keyed : s.Keyed)
    (h : w.held? = some o) (ok : (s.write w).answer.isOk) :
    (s.write w).change.map (·.key) = some o.key := by
  obtain ⟨c, hc, hv⟩ := (isOk_write_iff h).1 ok
  have effect := s.effect_write w
  generalize (s.write w).change = d at effect
  generalize (s.write w).store = t at effect
  cases effect with
  | taken | missing | pending | created | marked | deleted => cases h
  | stale held stale =>
    cases h.symm.trans held
    exact absurd hv (stale c hc)
  | updated | released =>
    cases h
    rfl
  | statusUpdated stored =>
    cases h
    have key := keyed _ _ stored
    exact congrArg some key

/-! ### Refused writes -/

theorem Effect.idle {s t : Store S} {w : Write S} {c : Option (Change S)} (h : Effect s w c t)
    (none : c = none) : t = s := by
  cases h with
  | taken | missing | pending | stale => rfl
  | created | marked | deleted | updated | released | statusUpdated => cases none

theorem change_of_refused {s : Store S} {w : Write S} (refused : (s.write w).answer.isOk = false) :
    (s.write w).change = none := by
  cases w with
  | create uid o =>
    cases present : s.get? o.key with
    | some =>
      simp only [write, create, present]
      rfl
    | none =>
      simp only [write, create, present] at refused
      cases refused
  | delete now key =>
    cases stored : s.get? key with
    | none =>
      simp only [write, delete, stored]
      rfl
    | some c =>
      simp only [write, delete, stored] at refused
      split at refused
      · cases refused
      · split at refused <;> cases refused
  | update o =>
    cases held : s.held o with
    | error =>
      simp only [write, update, held]
      rfl
    | ok c =>
      simp only [write, update, held] at refused
      split at refused <;> cases refused
  | updateStatus o =>
    cases held : s.held o with
    | error =>
      simp only [write, updateStatus, held]
      rfl
    | ok c =>
      simp only [write, updateStatus, held] at refused
      cases refused

theorem store_of_refused {s : Store S} {w : Write S} (refused : (s.write w).answer.isOk = false) :
    (s.write w).store = s :=
  (s.effect_write w).idle (change_of_refused refused)

/-! ### What becomes of an object -/

inductive Touch (s : Store S) (k : Key) :
    Option (Resource S) → Write S → Option (Change S) → Option (Resource S) → Prop
  | kept {o w c} (elsewhere : c.map (·.key) ≠ some k) : Touch s k o w c o
  | created {uid x} (key : x.key = k) :
    Touch s k none (.create uid x) (some (.created (s.draw (x.born uid))))
      (some (s.draw (x.born uid)))
  | marked {now o} (guarded : o.metadata.finalizers ≠ []) (unmarked : o.metadata.deletedAt = none) :
    Touch s k (some o) (.delete now k) (some (.updated o (s.draw (o.marked now))))
      (some (s.draw (o.marked now)))
  | deleted {now o} (bare : o.metadata.finalizers = []) :
    Touch s k (some o) (.delete now k) (some (.deleted o)) none
  | updated {u o} (key : u.key = k) (current : u.version = o.version)
      (stays : o.metadata.deletedAt = none ∨ u.metadata.finalizers ≠ []) :
    Touch s k (some o) (.update u) (some (.updated o (s.draw (revise o u))))
      (some (s.draw (revise o u)))
  | released {u o} (key : u.key = k) (current : u.version = o.version)
      (marked : o.metadata.deletedAt ≠ none) (bare : u.metadata.finalizers = []) :
    Touch s k (some o) (.update u) (some (.deleted (revise o u))) none
  | statusUpdated {u o} (key : u.key = k) (current : u.version = o.version) :
    Touch s k (some o) (.updateStatus u) (some (.updated o (s.draw (o.withStatus u.status))))
      (some (s.draw (o.withStatus u.status)))

theorem Effect.touch {s t : Store S} {w : Write S} {c : Option (Change S)} (h : Effect s w c t)
    (keyed : s.Keyed) (k : Key) : Touch s k (s.get? k) w c (t.get? k) := by
  by_cases hk : c.map (·.key) ≠ some k
  · rw [(h.turn keyed).get?_eq hk]
    exact .kept hk
  rw [not_not] at hk
  have put (n : Resource S) (hn : n.key = k) : (s.put n).get? k = some n :=
    hn ▸ get?_put_self s n
  have gone {x : Key} (hx : x = k) : (s.remove x).get? k = none := by
    rw [get?_remove, if_pos hx]
  cases h with
  | taken | missing | pending | stale => cases hk
  | @created uid o absent =>
    have key : o.key = k := Option.some.inj hk
    rw [put (s.draw (o.born uid)) key, ← key, absent]
    exact .created rfl
  | @marked now x o stored guarded unmarked =>
    have key : o.key = k := Option.some.inj hk
    obtain rfl : x = k := (keyed x o stored).symm.trans key
    rw [put (s.draw (o.marked now)) key, stored]
    exact .marked guarded unmarked
  | @deleted now x o stored bare =>
    have key : o.key = k := Option.some.inj hk
    obtain rfl : x = k := (keyed x o stored).symm.trans key
    rw [gone rfl, stored]
    exact .deleted bare
  | @updated u o stored current stays =>
    have key : u.key = k := Option.some.inj hk
    rw [put (s.draw (revise o u)) key, ← key, stored]
    exact .updated rfl current stays
  | @released u o stored current marked bare =>
    have key : u.key = k := Option.some.inj hk
    rw [gone key, ← key, stored]
    exact .released rfl current marked bare
  | @statusUpdated u o stored current =>
    have key : o.key = k := Option.some.inj hk
    have key' : u.key = k := (keyed u.key o stored).symm.trans key
    rw [put (s.draw (o.withStatus u.status)) key, ← key', stored]
    exact .statusUpdated rfl current

theorem get?_write_of_ne {s : Store S} (keyed : s.Keyed) {w : Write S} {k : Key}
    (other : w.key ≠ k) : (s.write w).store.get? k = s.get? k := by
  have touch := (s.effect_write w).touch keyed k
  generalize (s.write w).change = c at touch
  generalize s.get? k = before at touch ⊢
  generalize (s.write w).store.get? k = after at touch ⊢
  cases touch with
  | kept => rfl
  | created key | updated key | released key | statusUpdated key => exact absurd key other
  | marked | deleted => exact absurd rfl other

/-- An object loses a finalizer only to an update that holds its version, and goes only with its
last one. -/
theorem Effect.fate {s t : Store S} {w : Write S} {c : Option (Change S)} (h : Effect s w c t)
    (keyed : s.Keyed) {k : Key} {o : Resource S} (ho : s.get? k = some o) :
    (∃ d, t.get? k = some d ∧ o.Becomes d ∧
      ∀ f ∈ o.metadata.finalizers, f ∈ d.metadata.finalizers ∨ w.Strips o f) ∨
    t.get? k = none ∧ ∀ f ∈ o.metadata.finalizers, w.Strips o f := by
  have key : o.key = k := keyed k o ho
  have touch := h.touch keyed k
  rw [ho] at touch
  generalize t.get? k = after at touch
  cases touch with
  | kept => exact .inl ⟨o, rfl, .rfl, fun f hf => .inl hf⟩
  | marked guarded unmarked =>
    refine .inl ⟨_, rfl, ⟨rfl, fun at_ ha => ?_⟩, fun f hf => .inl hf⟩
    rw [unmarked] at ha
    cases ha
  | deleted bare =>
    refine .inr ⟨rfl, fun f hf => ?_⟩
    rw [bare] at hf
    cases hf
  | @updated u _ hu current stays =>
    refine .inl ⟨_, rfl, ⟨rfl, fun at_ ha => ha⟩, fun f hf => ?_⟩
    by_cases kept : f ∈ u.metadata.finalizers
    · exact .inl kept
    · exact .inr ⟨u, rfl, hu.trans key.symm, current, kept⟩
  | @released u _ hu current marked bare =>
    refine .inr ⟨rfl, fun f _ => ⟨u, rfl, hu.trans key.symm, current, ?_⟩⟩
    rw [bare]
    exact List.not_mem_nil
  | statusUpdated => exact .inl ⟨_, rfl, ⟨rfl, fun at_ ha => ha⟩, fun f hf => .inl hf⟩

end Store
end Tenancy
