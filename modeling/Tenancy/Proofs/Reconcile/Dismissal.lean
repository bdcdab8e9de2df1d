import Tenancy.Proofs.Deployment.Upkeep
import Tenancy.Proofs.Reconcile.Guard

/-! Passes that dismiss their key, so that it comes back with the next change only. Such a pass has
found no object under the key, or a marked one without the finalizer of its kind, and this stays so
until an object is created there. -/

namespace Tenancy

variable {S : Type}

/-- An update that gives a finalizer to the object of which the writer holds the version. -/
def Write.Adds (w : Write S) (c : Resource S) (f : String) : Prop :=
  ∃ o, w = .update o ∧ o.key = c.key ∧ o.version = c.version ∧
    f ∉ c.metadata.finalizers ∧ f ∈ o.metadata.finalizers

/-- What a pass knows of the object under its key, if there is one: nothing, that it is marked, or
that it has lost its finalizer as well. -/
inductive Belief where
  | vague
  | marked
  | released
deriving DecidableEq

def Resource.Needy [ResourceKind S] (o : Resource S) : Prop :=
  o.wasDeleted = false ∨ o.hasOwnFinalizer = true

theorem Resource.hasOwnFinalizer_withoutFinalizer [ResourceKind S] (o : Resource S) :
    (o.withoutFinalizer (ResourceKind.finalizer S)).hasOwnFinalizer = false := by
  rw [← Bool.not_eq_true, Resource.hasOwnFinalizer_iff]
  intro own
  have := (List.mem_filter.1 own).2
  simp at this

namespace Belief

variable [ResourceKind S] {b : Belief} {k : Key} {s t : Store S} {w : Write S}
  {c : Option (Change S)}

def Holds (k : Key) (s : Store S) : Belief → Prop
  | vague => True
  | marked => ∀ o, s.get? k = some o → o.wasDeleted = true
  | released => ∀ o, s.get? k = some o → ¬o.Needy

theorem Holds.of_absent (absent : s.get? k = none) : b.Holds k s := by
  cases b with
  | vague => trivial
  | marked | released =>
    intro o ho
    cases absent.symm.trans ho

theorem Holds.congr (h : b.Holds k s) (same : t.get? k = s.get? k) : b.Holds k t := by
  cases b with
  | vague => trivial
  | marked | released => exact fun o ho => h o (same ▸ ho)

theorem Holds.succeed (h : b.Holds k s) {o n : Resource S} (ho : s.get? k = some o)
    (hn : t.get? k = some n) (mark : o.wasDeleted = true → n.wasDeleted = true)
    (keeps : o.wasDeleted = true → n.hasOwnFinalizer = true → o.hasOwnFinalizer = true) :
    b.Holds k t := by
  have only {x : Resource S} (hx : t.get? k = some x) : n = x := Option.some.inj (hn.symm.trans hx)
  cases b with
  | vague => trivial
  | marked =>
    intro x hx
    rw [← only hx]
    exact mark (h o ho)
  | released =>
    intro x hx
    rw [← only hx]
    have idle : ¬o.Needy := h o ho
    unfold Resource.Needy at idle ⊢
    rw [not_or, Bool.not_eq_false] at idle ⊢
    exact ⟨mark idle.1, fun own => idle.2 (keeps idle.1 own)⟩

theorem Holds.effect (h : b.Holds k s) (effect : Store.Effect s w c t) (keyed : s.Keyed)
    (old : ∀ o, c = some (.created o) → o.key ≠ k)
    (keeps : ∀ o, s.get? k = some o → o.wasDeleted = true →
      ¬w.Adds o (ResourceKind.finalizer S)) : b.Holds k t := by
  have touch := effect.touch keyed k
  generalize ho : s.get? k = before at touch
  generalize hn : t.get? k = after at touch
  cases touch with
  | kept => exact h.congr (hn.trans ho.symm)
  | @created uid x key => exact absurd key (old (s.draw (x.born uid)) rfl)
  | marked => exact h.succeed ho hn (fun _ => rfl) fun _ own => own
  | deleted | released => exact .of_absent hn
  | @updated u o key current stays =>
    refine h.succeed ho hn (fun mark => mark) fun mark own => ?_
    -- a finalizer that is new was added by the writer
    by_contra lost
    refine keeps o ho mark ⟨u, rfl, key.trans (keyed k o ho).symm, current, ?_, ?_⟩
    · rwa [Resource.hasOwnFinalizer_iff] at lost
    · exact Resource.hasOwnFinalizer_iff.1 own
  | statusUpdated => exact h.succeed ho hn (fun mark => mark) fun _ own => own

def learn (b : Belief) : (q : Request S) → q.Answer → Belief
  | .get _, .ok o =>
    if o.wasDeleted then if o.hasOwnFinalizer then marked else released else vague
  | .update o, .ok _ => if o.hasOwnFinalizer || b = vague then vague else released
  | .get _, .error e | .update _, .error e => if e.isNotFound then released else b
  | _, _ => b

theorem Holds.marked_of_ne (h : b.Holds k s) (hb : b ≠ vague) {o : Resource S}
    (stored : s.get? k = some o) : o.wasDeleted = true := by
  cases b with
  | vague => exact absurd rfl hb
  | marked => exact h o stored
  | released =>
    have idle : ¬o.Needy := h o stored
    unfold Resource.Needy at idle
    rw [not_or, Bool.not_eq_false] at idle
    exact idle.1

theorem absent_of_held {o : Resource S} {e : StoreError} (h : s.held o = .error e)
    (gone : e.isNotFound = true) : s.get? o.key = none := by
  unfold Store.held at h
  cases stored : s.get? o.key with
  | none => rfl
  | some x =>
    rw [stored] at h
    dsimp only at h
    split at h
    · cases h
    · cases h
      cases gone

theorem holds_get (b : Belief) (s : Store S) (k : Key) :
    (b.learn (.get k) (s.get k)).Holds k s := by
  unfold Store.get
  cases stored : s.get? k with
  | none => exact .of_absent stored
  | some o =>
    have same {x : Resource S} (hx : s.get? k = some x) : o = x :=
      Option.some.inj (stored.symm.trans hx)
    dsimp only [learn]
    split
    · rename_i mark
      split
      · intro x hx
        rw [← same hx]
        exact mark
      · rename_i own
        intro x hx
        rw [← same hx]
        simp [Resource.Needy, mark, own]
    · trivial

theorem holds_update {o : Resource S} (h : b.Holds o.key s) :
    (b.learn (.update o) (s.update o).answer).Holds o.key (s.update o).store := by
  unfold Store.update
  cases held : s.held o with
  | error e =>
    dsimp only [Store.refuse, learn]
    split
    · exact .of_absent (absent_of_held held ‹_›)
    · exact h
  | ok x =>
    obtain ⟨stored, -⟩ := Store.held_eq_ok.1 held
    dsimp only
    split
    · exact .of_absent (by rw [Store.get?_remove, if_pos rfl])
    · dsimp only [learn]
      split
      · trivial
      · rename_i told
        rw [Bool.or_eq_true, not_or, decide_eq_true_eq, Bool.not_eq_true] at told
        intro y hy
        have key : (s.draw (Store.revise x o)).key = o.key := rfl
        rw [Store.get?_put, if_pos key] at hy
        have mark : x.wasDeleted = true := h.marked_of_ne told.2 stored
        have mark : (s.draw (Store.revise x o)).wasDeleted = true := mark
        have bare : (s.draw (Store.revise x o)).hasOwnFinalizer = false := told.1
        rw [← Option.some.inj hy]
        simp [Resource.Needy, mark, bare]

end Belief

/-! ### Passes -/

def Request.Minds (k : Key) : Request S → Prop
  | get key => key = k
  | update o => o.key = k
  | updateStatus _ | clock | logic _ => True

namespace Pass

open Program

variable [ResourceKind S] {α : Type} {b : Belief} {k : Key}

/-- Whoever gives up for good believes that nothing is left to do. -/
def Dismisses (r : Outcome) (b : Belief) : Prop := r = .ok none → b = .released

abbrev Told (b : Belief) (q : Request S) (a : q.Answer) (b' : Belief) : Prop :=
  q.Apt a ∧ b' = b.learn q a

abbrev Heeds (k : Key) (p : Pass S α) (promised : α → Belief → Prop) (b : Belief) : Prop :=
  p.Safe (Request.Minds k) Told promised b

theorem heeds_inquire {promised : α → Belief → Prop} (h : ∀ a, promised a b) (i : Inquiry α) :
    Heeds k (inquire i : Pass S α) promised b := by
  induction i with
  | done a => exact h a
  | ask q next ih =>
    refine ⟨trivial, fun a b' told => ?_⟩
    cases told.2
    exact ih a

theorem heeds_advance {p : Phase} {s : Step} {next : Phase → Bool → Pass S Outcome}
    (h : ∀ q persist, Heeds k (next q persist) Dismisses b) :
    Heeds k (advance p s next) Dismisses b := by
  unfold advance
  split
  · exact h _ _
  · exact nofun

theorem heeds_fail (p : Phase) (o : Resource S) (e : ReconcileError) :
    Heeds k (fail p o e) Dismisses b := by
  refine heeds_advance fun _ persist => ?_
  split
  · refine ⟨trivial, fun now b' _ => ⟨trivial, fun a b'' _ => ?_⟩⟩
    cases a <;> exact nofun
  · exact nofun

theorem heeds_conclude (logic : Logic S) (p : Phase) (persist : Bool) (o : Resource S) :
    Heeds k (conclude logic p persist o) Dismisses b := by
  have go (o : Resource S) (b : Belief) : Heeds k (advance p .statusWritten fun _ _ => do
      return .ok (some (← inquire (logic.delay o))) : Pass S Outcome) Dismisses b :=
    heeds_advance fun _ _ => safe_bind (heeds_inquire (fun _ => nofun) _)
  unfold conclude
  split
  · refine ⟨trivial, fun now b' _ => ⟨trivial, fun a b'' _ => ?_⟩⟩
    cases a with
    | ok => exact go _ _
    | error => exact heeds_advance fun _ _ => nofun
  · exact go o b

theorem heeds_add {promised : Hooked S → Belief → Prop} {o : Resource S} (key : o.key = k)
    (h : ∀ a b, promised a b) : Heeds k (amend (Finalizer.addInStore o)) promised b := by
  rw [Finalizer.addInStore_eq]
  split
  · exact h _ b
  · refine ⟨(o.key_withFinalizer _).trans key, fun a b' _ => ?_⟩
    cases a <;> exact h _ b'

theorem heeds_live (logic : Logic S) (p : Phase) {o : Resource S} (key : o.key = k) :
    Heeds k (live logic .inStore p o) Dismisses b := by
  refine safe_bind (heeds_add key ?_)
  rintro ⟨o, e | ⟨⟩⟩ b
  · exact heeds_fail p o (.finalizer "add" e)
  refine heeds_advance fun p _ => safe_bind (heeds_inquire ?_ _)
  rintro ⟨o, e | ⟨⟩⟩
  · exact heeds_fail p o e
  refine heeds_advance fun p _ => safe_bind (heeds_inquire ?_ _)
  rintro ⟨o, e | ⟨⟩⟩
  · exact heeds_fail p o e
  · exact heeds_advance fun p persist => heeds_conclude logic p persist o

theorem heeds_finalize (logic : Logic S) (wait : Span) (p : Phase) {o : Resource S}
    (key : o.key = k) (known : b = if o.hasOwnFinalizer then .marked else .released) :
    Heeds k (finalize logic .inStore wait p o) Dismisses b := by
  have away (o : Resource S) (b : Belief) (hb : b = .released) :
      Heeds k (advance p .finalizerRemoved fun _ _ => do
        inquire (logic.release o)
        return .ok none : Pass S Outcome) Dismisses b :=
    heeds_advance fun _ _ => safe_bind (heeds_inquire (fun _ _ => hb) _)
  unfold finalize
  refine safe_bind (heeds_inquire ?_ _)
  rintro (e | clean)
  · exact heeds_fail p o e
  cases clean with
  | false => exact heeds_advance fun _ _ => nofun
  | true =>
    refine safe_bind ?_
    have remove : Finalizer.inStore.remove o = _ := Finalizer.removeInStore_eq o
    rw [remove]
    split
    · rename_i bare
      rw [Bool.not_eq_true'] at bare
      rw [bare] at known
      exact away o b known
    · rename_i own
      rw [Bool.not_eq_true', Bool.not_eq_false] at own
      have bare := o.hasOwnFinalizer_withoutFinalizer
      refine ⟨key, fun a b' told => ?_⟩
      have told := told.2
      cases a with
      | ok n =>
        -- what was believed to be marked has lost its finalizer now
        refine away n b' ?_
        rw [told, known, if_pos own, Belief.learn, bare]
        rfl
      | error e =>
        dsimp only [Program.bind, Belief.learn] at told ⊢
        cases gone : e.isNotFound with
        | true =>
          rw [gone] at told
          exact away _ b' told
        | false => exact heeds_fail p _ _

theorem heeds_run (logic : Logic S) (wait : Span) (k : Key) :
    Heeds k (run logic .inStore wait k) Dismisses .vague := by
  refine ⟨rfl, fun a b told => ?_⟩
  obtain ⟨apt, told⟩ := told
  cases a with
  | error e =>
    dsimp only [Program.bind, Belief.learn] at told ⊢
    split
    · rename_i gone
      rw [if_pos gone] at told
      exact heeds_advance fun _ _ _ => told
    · exact heeds_advance fun _ _ => nofun
  | ok o =>
    dsimp only [Program.bind]
    split
    · exact heeds_advance fun _ _ => nofun
    · refine heeds_advance fun p _ => ?_
      split
      · rename_i mark
        refine heeds_finalize logic wait p (apt o rfl) ?_
        rw [told, Belief.learn, if_pos mark]
      · exact heeds_live logic p (apt o rfl)

end Pass
end Tenancy
