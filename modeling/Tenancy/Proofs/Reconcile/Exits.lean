import Mathlib.Data.List.Infix
import Tenancy.Organization.Logic
import Tenancy.Proofs.Condition
import Tenancy.Proofs.Reconcile.Dialogue
import Tenancy.Proofs.Reconcile.Journal

/-! The exits of a pass, whatever the store, the finalizer and the logic answer. The work that a
pass does in a phase comes to a step, and the phases accept every step that a pass takes: they are
led from the fetch to an end, and the status is written where they ask for it, once, unless the
failure shows that the object in hand is stale. -/

namespace Tenancy

namespace Phase

/-- The phase after some steps, and whether one of them asked for the status to be written. -/
def follow (p : Phase) : List Step → Except StepError (Phase × Bool)
  | [] => .ok (p, false)
  | s :: ss =>
    match p.transition s with
    | .error e => .error e
    | .ok (q, asked) => (q.follow ss).map fun x => (x.1, asked || x.2)

theorem follow_concat {p q q' : Phase} {ss : List Step} {s : Step} {asked asked' : Bool}
    (h : p.follow ss = .ok (q, asked)) (h' : q.transition s = .ok (q', asked')) :
    p.follow (ss ++ [s]) = .ok (q', asked || asked') := by
  induction ss generalizing p asked with
  | nil =>
    cases h
    simp [follow, h', Except.map]
  | cons x xs ih =>
    rw [follow] at h
    rw [List.cons_append, follow]
    rcases hx : p.transition x with e | ⟨y, first⟩
    · rw [hx] at h
      cases h
    · rw [hx] at h
      dsimp only at h ⊢
      rcases hy : y.follow xs with e | ⟨z, later⟩
      · rw [hy] at h
        cases h
      · rw [hy] at h
        cases h
        rw [ih hy, Bool.or_assoc]
        rfl

end Phase

/-! ### Conditions -/

def Resource.Says {S : Type} (o : Resource S) (c : Condition) : Prop :=
  (o.condition c.kind).agrees c = true

theorem Resource.says_setConditions {S : Type} (o : Resource S) {c d : Condition}
    (h : d.kind ≠ c.kind) :
    (o.setConditions [c, d]).Says c ∧ (o.setConditions [c, d]).Says d := by
  constructor
  · show (Condition.get (d.set (c.set o.status.conditions)) c.kind).agrees c = true
    rw [Condition.get_set_of_ne h]
    exact Condition.agrees_get_set c _
  · exact Condition.agrees_get_set d _

/-- The failure itself, without what was done when it happened. -/
def ReconcileError.root : ReconcileError → ReconcileError
  | statusUpdate _ cause | finalizer _ cause => cause.root
  | e => e

theorem ReconcileError.root_ofStore (e : StoreError) (x : StepError) :
    (ofStore e).root ≠ .invalidStep x := by
  cases e <;> simp [ofStore, root]

namespace Pass

open Program

variable {S : Type} [ResourceKind S]

inductive Breaks (logic : Logic S) (guard : Finalizer S) :
    Phase → Resource S → Talk S → ReconcileError → Resource S → Prop
  | guarding {o o' t e} (l : Leads (amend (guard.add o)) t (.done (o', .error e))) :
    Breaks logic guard .live o t (.finalizer "add" e) o'
  | preparing {o o' t e} (l : Leads (inquire (logic.prepare o)) t (.done (o', .error e))) :
    Breaks logic guard .guarded o t e o'
  | applying {o o' t e} (l : Leads (inquire (logic.apply o)) t (.done (o', .error e))) :
    Breaks logic guard .initialized o t e o'
  | cleaningUp {o t e} (l : Leads (inquire (logic.cleanUp o)) t (.done (.error e))) :
    Breaks logic guard .deleting o t e o
  | givingUp {o o' t u e} (cleaned : Leads (inquire (logic.cleanUp o)) t (.done (.ok true)))
    (l : Leads (amend (guard.remove o)) u (.done (o', .error e))) :
    Breaks logic guard .deleting o (t ++ u) (.finalizer "remove" e) o'

/-- The phases that a pass reaches before it ends, with the object in hand, the steps that led
there, and all that was said. -/
inductive Reaches (logic : Logic S) (guard : Finalizer S) (key : Key) :
    Phase → Resource S → List Step → Talk S → Prop
  | live {o} (fits : o.fits = true) (mark : o.wasDeleted = false) :
    Reaches logic guard key .live o [.fetched false] [⟨.get key, .ok o⟩]
  | deleting {o} (fits : o.fits = true) (mark : o.wasDeleted = true) :
    Reaches logic guard key .deleting o [.fetched true] [⟨.get key, .ok o⟩]
  | guarded {o o' ss t u} (reaches : Reaches logic guard key .live o ss t)
    (l : Leads (amend (guard.add o)) u (.done (o', .ok ()))) :
    Reaches logic guard key .guarded o' (ss ++ [.finalizerAdded]) (t ++ u)
  | prepared {o o' ss t u} (reaches : Reaches logic guard key .guarded o ss t)
    (l : Leads (inquire (logic.prepare o)) u (.done (o', .ok ()))) :
    Reaches logic guard key .initialized o' (ss ++ [.resourceInitialized]) (t ++ u)
  | applied {o o' ss t u} (reaches : Reaches logic guard key .initialized o ss t)
    (l : Leads (inquire (logic.apply o)) u (.done (o', .ok ()))) :
    Reaches logic guard key .applied o' (ss ++ [.logicApplied]) (t ++ u)

def afterWrite (S : Type) [ResourceKind S] (answer : Except StoreError (Resource S))
    (r : Outcome) : Outcome :=
  match answer with
  | .ok _ => r
  | .error e => .error (.statusUpdate (ResourceKind.title S) (.ofStore e))

def failed (o : Resource S) (e : ReconcileError) (now : Instant) : Resource S :=
  o.setConditions [.failure e.message now, .notReady now]

def succeeded (o : Resource S) (now : Instant) : Resource S :=
  o.setConditions [.success now, .ready now]

abbrev StatusWrite (S : Type) := Resource S × Except StoreError (Resource S)

inductive Records (o : Resource S) (e : ReconcileError) :
    Option (StatusWrite S) → Talk S → Outcome → Prop
  | stale (h : e.isConflict = true) : Records o e none [] (.error e)
  | recorded (h : e.isConflict = false) (now : Instant) (answer) :
    Records o e (some (failed o e now, answer))
      [⟨.clock, now⟩, ⟨.updateStatus (failed o e now), answer⟩] (afterWrite S answer (.error e))

/-- How a pass went: the steps that were fed to the phases, the failure of the work that broke after
the fetch, and the write of the status. -/
structure Course (S : Type) where
  steps : List Step
  failure : Option ReconcileError
  written : Option (StatusWrite S)

inductive Takes (logic : Logic S) (guard : Finalizer S) (wait : Span) (key : Key) :
    Course S → Talk S → Outcome → Prop
  | vanished {e} (gone : e.isNotFound = true) :
    Takes logic guard wait key ⟨[.vanished], none, none⟩ [⟨.get key, .error e⟩] (.ok none)
  | unread {e} (other : e.isNotFound = false) :
    Takes logic guard wait key ⟨[.failed], none, none⟩ [⟨.get key, .error e⟩] (.error (.ofStore e))
  | misfit {o} (fits : o.fits = false) :
    Takes logic guard wait key ⟨[.failed], none, none⟩ [⟨.get key, .ok o⟩]
      (.error (.unexpectedResource (ResourceKind.title S) o.typeMeta.kind))
  | broken {p o o' e ss w r t u v} (reaches : Reaches logic guard key p o ss t)
    (breaks : Breaks logic guard p o u e o') (records : Records o' e w v r) :
    Takes logic guard wait key ⟨ss ++ [.failed], some e, w⟩ (t ++ u ++ v) r
  | pending {o ss t u} (reaches : Reaches logic guard key .deleting o ss t)
    (l : Leads (inquire (logic.cleanUp o)) u (.done (.ok false))) :
    Takes logic guard wait key ⟨ss ++ [.cleanupPending], none, none⟩ (t ++ u) (.ok (some wait))
  | released {o o' ss t u v w} (reaches : Reaches logic guard key .deleting o ss t)
    (cleaned : Leads (inquire (logic.cleanUp o)) u (.done (.ok true)))
    (removed : Leads (amend (guard.remove o)) v (.done (o', .ok ())))
    (l : Leads (inquire (logic.release o')) w (.done ())) :
    Takes logic guard wait key ⟨ss ++ [.finalizerRemoved], none, none⟩ (t ++ u ++ v ++ w) (.ok none)
  | unwritten {o ss t} (reaches : Reaches logic guard key .applied o ss t) (now : Instant) (e) :
    Takes logic guard wait key ⟨ss ++ [.failed], none, some (succeeded o now, .error e)⟩
      (t ++ [⟨.clock, now⟩, ⟨.updateStatus (succeeded o now), .error e⟩])
      (.error (.statusUpdate (ResourceKind.title S) (.ofStore e)))
  | converged {o ss t u a d} (reaches : Reaches logic guard key .applied o ss t) (now : Instant)
    (l : Leads (inquire (logic.delay (succeeded o now))) u (.done d)) :
    Takes logic guard wait key ⟨ss ++ [.statusWritten], none, some (succeeded o now, .ok a)⟩
      (t ++ [⟨.clock, now⟩, ⟨.updateStatus (succeeded o now), .ok a⟩] ++ u) (.ok (some d))

variable {logic : Logic S} {guard : Finalizer S} {wait : Span} {key : Key} {p : Phase}
  {o o' : Resource S} {e : ReconcileError} {ss : List Step} {c : Course S} {t u v : Talk S}
  {r : Outcome}

/-! ### Every pass takes one of the ways -/

theorem records_of_fail (asks : p.transition .failed = .ok (.failed, true))
    (l : Tells (fail p o e) t ss r) : ss = [.failed] ∧ ∃ w, Records o e w t r := by
  obtain ⟨later, rfl, fed⟩ := tells_feeds l
  rw [asks] at fed
  cases he : e.isConflict with
  | true =>
    simp only [he, Bool.not_true, Bool.and_false] at fed
    cases fed
    exact ⟨rfl, none, .stale he⟩
  | false =>
    simp only [he, Bool.not_false, Bool.and_true] at fed
    cases fed with
    | @told _ _ now _ _ l =>
      cases l with
      | @told _ _ answer _ _ l =>
        have recorded := Records.recorded (o := o) he now answer
        cases answer <;> cases l <;> exact ⟨rfl, _, recorded⟩

omit [ResourceKind S] in
theorem Breaks.asks (h : Breaks logic guard p o t e o') :
    p.transition .failed = .ok (.failed, true) := by
  cases h <;> rfl

variable {ss' : List Step}

theorem takes_of_fail (reaches : Reaches logic guard key p o ss t)
    (breaks : Breaks logic guard p o u e o') (l : Tells (fail p o' e) v ss' r) :
    ∃ c, c.steps = ss ++ ss' ∧ Takes logic guard wait key c (t ++ u ++ v) r := by
  obtain ⟨rfl, w, records⟩ := records_of_fail breaks.asks l
  exact ⟨_, rfl, .broken reaches breaks records⟩

theorem takes_of_conclude (reaches : Reaches logic guard key .applied o ss t)
    (l : Tells (conclude logic .applied true o) u ss' r) :
    ∃ c, c.steps = ss ++ ss' ∧ Takes logic guard wait key c (t ++ u) r := by
  cases l with
  | @told _ _ now _ _ l =>
    cases l with
    | @told _ _ answer _ _ l =>
      cases answer with
      | error e =>
        cases l
        exact ⟨_, rfl, .unwritten reaches now e⟩
      | ok a =>
        obtain ⟨later, rfl, fed⟩ := tells_feeds l
        obtain ⟨u₁, u₂, d, rfl, asked, l⟩ := leads_bind_done fed
        cases l
        have way : Takes logic guard wait key _ _ _ := .converged (a := a) reaches now asked
        rw [List.append_assoc] at way
        rw [List.append_nil]
        exact ⟨_, rfl, way⟩

theorem takes_of_live (reaches : Reaches logic guard key .live o ss t)
    (l : Tells (live logic guard .live o) u ss' r) :
    ∃ c, c.steps = ss ++ ss' ∧ Takes logic guard wait key c (t ++ u) r := by
  obtain ⟨u₁, u, ⟨o₁, e | ⟨⟩⟩, rfl, l₁, l⟩ := leads_bind_done l
  · rw [← List.append_assoc]
    exact takes_of_fail reaches (.guarding l₁) l
  obtain ⟨ss₁, rfl, fed₁⟩ := tells_feeds l
  obtain ⟨u₂, u, ⟨o₂, e | ⟨⟩⟩, rfl, l₂, l⟩ := leads_bind_done fed₁
  · rw [List.append_cons, ← List.append_assoc, ← List.append_assoc]
    exact takes_of_fail (.guarded reaches l₁) (.preparing l₂) l
  obtain ⟨ss₂, rfl, fed₂⟩ := tells_feeds l
  obtain ⟨u₃, u, ⟨o₃, e | ⟨⟩⟩, rfl, l₃, l⟩ := leads_bind_done fed₂
  · rw [List.append_cons, List.append_cons, ← List.append_assoc, ← List.append_assoc,
      ← List.append_assoc]
    exact takes_of_fail (.prepared (.guarded reaches l₁) l₂) (.applying l₃) l
  obtain ⟨ss₃, rfl, fed₃⟩ := tells_feeds l
  rw [List.append_cons, List.append_cons, List.append_cons, ← List.append_assoc,
    ← List.append_assoc, ← List.append_assoc]
  exact takes_of_conclude (.applied (.prepared (.guarded reaches l₁) l₂) l₃) fed₃

theorem takes_of_finalize (reaches : Reaches logic guard key .deleting o ss t)
    (l : Tells (finalize logic guard wait .deleting o) u ss' r) :
    ∃ c, c.steps = ss ++ ss' ∧ Takes logic guard wait key c (t ++ u) r := by
  obtain ⟨u₁, u, answer, rfl, l₁, l⟩ := leads_bind_done l
  rw [← List.append_assoc]
  cases answer with
  | error e => exact takes_of_fail reaches (.cleaningUp l₁) l
  | ok clean =>
    cases clean with
    | false =>
      cases l
      rw [List.append_nil]
      exact ⟨_, rfl, .pending reaches l₁⟩
    | true =>
      obtain ⟨u₂, u, ⟨o', e | ⟨⟩⟩, rfl, l₂, l⟩ := leads_bind_done l
      · simpa only [List.append_assoc] using takes_of_fail reaches (.givingUp l₁ l₂) l
      · obtain ⟨later, rfl, fed⟩ := tells_feeds l
        obtain ⟨u₃, u, ⟨⟩, rfl, l₃, l⟩ := leads_bind_done fed
        cases l
        rw [List.append_nil, ← List.append_assoc]
        exact ⟨_, rfl, .released reaches l₁ l₂ l₃⟩

theorem takes_of_journal (l : Tells (run logic guard wait key) t ss r) :
    ∃ c, c.steps = ss ∧ Takes logic guard wait key c t r := by
  cases l with
  | @told _ _ answer t _ l =>
    cases answer with
    | error e =>
      dsimp only [Program.bind] at l
      cases gone : e.isNotFound with
      | true =>
        rw [gone] at l
        cases l
        exact ⟨_, rfl, .vanished gone⟩
      | false =>
        rw [gone] at l
        cases l
        exact ⟨_, rfl, .unread gone⟩
    | ok o =>
      dsimp only [Program.bind] at l
      cases fits : o.fits with
      | false =>
        rw [fits] at l
        cases l
        exact ⟨_, rfl, .misfit fits⟩
      | true =>
        rw [fits] at l
        obtain ⟨later, rfl, fed⟩ := tells_feeds l
        cases mark : o.wasDeleted with
        | false =>
          rw [mark] at fed
          exact takes_of_live (.live fits mark) fed
        | true =>
          rw [mark] at fed
          exact takes_of_finalize (.deleting fits mark) fed

theorem takes_of_run (l : Leads (run logic guard wait key) t (.done r)) :
    ∃ c, Takes logic guard wait key c t r := by
  obtain ⟨ss, l⟩ := (leads_run_iff logic guard wait).1 l
  obtain ⟨c, -, takes⟩ := takes_of_journal l
  exact ⟨c, takes⟩

/-! ### What a pass leaves behind -/

def statusWrite? : (Σ q : Request S, q.Answer) → Option (StatusWrite S)
  | ⟨.updateStatus o, answer⟩ => some (o, answer)
  | ⟨.get _, _⟩ | ⟨.update _, _⟩ | ⟨.clock, _⟩ | ⟨.logic _, _⟩ => none

def statusWrites (t : Talk S) : List (StatusWrite S) := t.filterMap statusWrite?

omit [ResourceKind S] in
theorem statusWrites_append (t u : Talk S) :
    statusWrites (t ++ u) = statusWrites t ++ statusWrites u := List.filterMap_append

omit [ResourceKind S] in
theorem statusWrites_eq_nil {α : Type} {q rest : Pass S α} (l : Leads q t rest)
    (h : q.Only fun q => ∀ o, q ≠ .updateStatus o) : statusWrites t = [] := by
  refine List.filterMap_eq_nil_iff.2 fun said hs => ?_
  have other := h.mem l said hs
  obtain ⟨q, answer⟩ := said
  cases q with
  | updateStatus o => exact absurd rfl (other o)
  | get | update | clock | logic => rfl

omit [ResourceKind S] in
theorem statusWrites_inquire {α : Type} {i : Inquiry α} {rest : Pass S α}
    (l : Leads (inquire i) t rest) : statusWrites t = [] :=
  statusWrites_eq_nil l (only_embed (by simp) i)

omit [ResourceKind S] in
theorem statusWrites_amend {α : Type} {w : Amendment S α} {rest : Pass S α}
    (l : Leads (amend w) t rest) : statusWrites t = [] :=
  statusWrites_eq_nil l (only_embed (by simp) w)

theorem Reaches.follow (h : Reaches logic guard key p o ss t) :
    Phase.fetching.follow ss = .ok (p, p == .applied) := by
  induction h with
  | live | deleting => rfl
  | guarded _ _ ih | prepared _ _ ih | applied _ _ ih => exact Phase.follow_concat ih rfl

theorem Reaches.applied_iff (h : Reaches logic guard key p o ss t) :
    .logicApplied ∈ ss ↔ p = .applied := by
  induction h with
  | live | deleting => simp
  | guarded _ _ ih | prepared _ _ ih | applied _ _ ih => simp [ih]

theorem Reaches.statusWrites (h : Reaches logic guard key p o ss t) : statusWrites t = [] := by
  induction h with
  | live | deleting => rfl
  | guarded _ l ih => rw [statusWrites_append, ih, statusWrites_amend l, List.append_nil]
  | prepared _ l ih | applied _ l ih =>
    rw [statusWrites_append, ih, statusWrites_inquire l, List.append_nil]

omit [ResourceKind S] in
theorem Breaks.statusWrites (h : Breaks logic guard p o t e o') : statusWrites t = [] := by
  cases h with
  | guarding l => exact statusWrites_amend l
  | preparing l | applying l | cleaningUp l => exact statusWrites_inquire l
  | givingUp cleaned l =>
    rw [statusWrites_append, statusWrites_inquire cleaned, statusWrites_amend l]
    rfl

omit [ResourceKind S] in
theorem Breaks.ne_applied (h : Breaks logic guard p o t e o') : p ≠ .applied := by
  cases h <;> simp

structure Course.Orderly (c : Course S) (logic : Logic S) (guard : Finalizer S) (wait : Span)
    (t : Talk S) (r : Outcome) : Prop where
  /-- The phases accept the steps and are led to an end; the status is written if they ask for it
  and the object in hand may be current. -/
  accepted : ∃ q asked, Phase.fetching.follow c.steps = .ok (q, asked) ∧ q.isTerminal = true ∧
    (c.written.isSome ↔ asked = true ∧ ∀ e, c.failure = some e → e.isConflict = false)
  once : statusWrites t = c.written.toList
  rejected : ∀ e x, r = .error e → e.root = .invalidStep x → c.failure = some e
  broken : ∀ e, c.failure = some e → ∃ p o u o', u <:+: t ∧ Breaks logic guard p o u e o'
  applied : .logicApplied ∈ c.steps → ∃ o now answer, c.written = some (o, answer) ∧
    o.Says (.success now) ∧ o.Says (.ready now) ∧ (answer.isOk → ∃ d, r = .ok (some d)) ∧
    ∀ e, answer = .error e → r = .error (.statusUpdate (ResourceKind.title S) (.ofStore e))
  delayed : ∀ d, r = .ok (some d) → .cleanupPending ∈ c.steps ∧ d = wait ∨
    .logicApplied ∈ c.steps ∧ ∃ o a u, c.written = some (o, .ok a) ∧ u <:+: t ∧
      Leads (inquire (logic.delay o)) u (.done d)
  recorded : ∀ e, c.failure = some e → e.isConflict = false →
    ∃ o now answer, c.written = some (o, answer) ∧
      o.Says (.failure e.message now) ∧ o.Says (.notReady now) ∧ (answer.isOk → r = .error e) ∧
      ∀ x, answer = .error x → r = .error (.statusUpdate (ResourceKind.title S) (.ofStore x))
  stale : ∀ e, c.failure = some e → e.isConflict = true → r = .error e

omit [ResourceKind S] in
theorem says_failed (o : Resource S) (e : ReconcileError) (now : Instant) :
    (failed o e now).Says (.failure e.message now) ∧ (failed o e now).Says (.notReady now) :=
  o.says_setConditions (by simp [Condition.failure, Condition.notReady])

omit [ResourceKind S] in
theorem says_succeeded (o : Resource S) (now : Instant) :
    (succeeded o now).Says (.success now) ∧ (succeeded o now).Says (.ready now) :=
  o.says_setConditions (by simp [Condition.success, Condition.ready])

theorem Records.isSome (h : Records o e w v r) : w.isSome ↔ e.isConflict = false := by
  cases h with
  | stale h => simp [h]
  | recorded h => simp [h]

theorem Records.statusWrites (h : Records o e w v r) : statusWrites v = w.toList := by
  cases h <;> rfl

namespace Takes

variable (h : Takes logic guard wait key c t r)
include h

theorem accepted : ∃ q asked, Phase.fetching.follow c.steps = .ok (q, asked) ∧
    q.isTerminal = true ∧
    (c.written.isSome ↔ asked = true ∧ ∀ e, c.failure = some e → e.isConflict = false) := by
  cases h with
  | vanished => exact ⟨.gone, false, rfl, rfl, by simp⟩
  | unread | misfit => exact ⟨.failed, false, rfl, rfl, by simp⟩
  | broken reaches breaks records =>
    have led := Phase.follow_concat reaches.follow breaks.asks
    exact ⟨.failed, _, led, rfl, by simp [records.isSome]⟩
  | pending reaches => exact ⟨.pending, _, Phase.follow_concat reaches.follow rfl, rfl, by simp⟩
  | released reaches => exact ⟨.released, _, Phase.follow_concat reaches.follow rfl, rfl, by simp⟩
  | unwritten reaches => exact ⟨.failed, _, Phase.follow_concat reaches.follow rfl, rfl, by simp⟩
  | converged reaches =>
    exact ⟨.converged, _, Phase.follow_concat reaches.follow rfl, rfl, by simp⟩

theorem once : statusWrites t = c.written.toList := by
  cases h with
  | vanished | unread | misfit => rfl
  | broken reaches breaks records =>
    rw [statusWrites_append, statusWrites_append, reaches.statusWrites, breaks.statusWrites,
      records.statusWrites]
    rfl
  | pending reaches l =>
    rw [statusWrites_append, reaches.statusWrites, statusWrites_inquire l]
    rfl
  | released reaches cleaned removed l =>
    simp only [statusWrites_append, reaches.statusWrites, statusWrites_inquire cleaned,
      statusWrites_amend removed, statusWrites_inquire l]
    rfl
  | unwritten reaches =>
    rw [statusWrites_append, reaches.statusWrites]
    rfl
  | converged reaches now l =>
    rw [statusWrites_append, statusWrites_append, reaches.statusWrites, statusWrites_inquire l]
    rfl

theorem rejected {e : ReconcileError} {x : StepError} (he : r = .error e)
    (hx : e.root = .invalidStep x) : c.failure = some e := by
  have store (y : StoreError) : (ReconcileError.ofStore y).root ≠ .invalidStep x :=
    ReconcileError.root_ofStore y x
  cases h with
  | vanished | pending | released | converged => cases he
  | unread | unwritten =>
    cases he
    exact absurd hx (store _)
  | misfit =>
    cases he
    cases hx
  | broken _ _ records =>
    cases records with
    | stale =>
      cases he
      rfl
    | recorded _ _ answer =>
      cases answer with
      | ok =>
        cases he
        rfl
      | error y =>
        cases he
        exact absurd hx (store y)

theorem breaks {e : ReconcileError} (he : c.failure = some e) :
    ∃ p o u o', u <:+: t ∧ Breaks logic guard p o u e o' := by
  cases h with
  | vanished | unread | misfit | pending | released | unwritten | converged => cases he
  | broken _ breaks =>
    cases he
    exact ⟨_, _, _, _, List.infix_append .., breaks⟩

theorem applied (steps : .logicApplied ∈ c.steps) : ∃ o now answer, c.written = some (o, answer) ∧
    o.Says (.success now) ∧ o.Says (.ready now) ∧ (answer.isOk → ∃ d, r = .ok (some d)) ∧
    ∀ e, answer = .error e →
      r = .error (.statusUpdate (ResourceKind.title S) (.ofStore e)) := by
  cases h with
  | vanished | unread | misfit => simp at steps
  | broken reaches breaks => simp [reaches.applied_iff, breaks.ne_applied] at steps
  | pending reaches | released reaches => simp [reaches.applied_iff] at steps
  | @unwritten o _ _ _ now =>
    obtain ⟨success, ready⟩ := says_succeeded o now
    refine ⟨_, now, _, rfl, success, ready, fun ok => ?_, fun x hx => ?_⟩
    · cases ok
    · cases hx
      rfl
  | @converged o _ _ _ _ d _ now =>
    obtain ⟨success, ready⟩ := says_succeeded o now
    refine ⟨_, now, _, rfl, success, ready, fun _ => ⟨d, rfl⟩, fun x hx => ?_⟩
    cases hx

theorem delayed {d : Span} (hr : r = .ok (some d)) : .cleanupPending ∈ c.steps ∧ d = wait ∨
    .logicApplied ∈ c.steps ∧ ∃ o a u, c.written = some (o, .ok a) ∧ u <:+: t ∧
      Leads (inquire (logic.delay o)) u (.done d) := by
  cases h with
  | vanished | unread | misfit | released | unwritten => cases hr
  | broken _ _ records =>
    cases records with
    | stale => cases hr
    | recorded _ _ answer => cases answer <;> cases hr
  | pending =>
    cases hr
    exact .inl ⟨by simp, rfl⟩
  | @converged _ _ _ _ a _ reaches now l =>
    cases hr
    have steps := reaches.applied_iff.2 rfl
    exact .inr ⟨by simp [steps], _, a, _, rfl, (List.suffix_append ..).isInfix, l⟩

theorem recorded {e : ReconcileError} (he : c.failure = some e) (fresh : e.isConflict = false) :
    ∃ o now answer, c.written = some (o, answer) ∧
      o.Says (.failure e.message now) ∧ o.Says (.notReady now) ∧ (answer.isOk → r = .error e) ∧
      ∀ x, answer = .error x →
        r = .error (.statusUpdate (ResourceKind.title S) (.ofStore x)) := by
  cases h with
  | vanished | unread | misfit | pending | released | unwritten | converged => cases he
  | @broken _ _ o' _ _ _ _ _ _ _ _ _ records =>
    cases he
    cases records with
    | stale conflict => cases fresh.symm.trans conflict
    | recorded _ now answer =>
      obtain ⟨failure, notReady⟩ := says_failed o' e now
      refine ⟨_, now, answer, rfl, failure, notReady, fun ok => ?_, fun x hx => ?_⟩
      · cases answer with
        | ok => rfl
        | error => cases ok
      · rw [hx]
        rfl

theorem stale {e : ReconcileError} (he : c.failure = some e) (conflict : e.isConflict = true) :
    r = .error e := by
  cases h with
  | vanished | unread | misfit | pending | released | unwritten | converged => cases he
  | broken _ _ records =>
    cases he
    cases records with
    | stale => rfl
    | recorded fresh => cases fresh.symm.trans conflict

theorem orderly : c.Orderly logic guard wait t r where
  accepted := h.accepted
  once := h.once
  rejected _ _ := h.rejected
  broken _ := h.breaks
  applied := h.applied
  delayed _ := h.delayed
  recorded _ := h.recorded
  stale _ := h.stale

end Takes

/-- Every pass that comes to an end went orderly, by the steps that its journal tells. -/
theorem orderly_exits (l : Leads (run logic guard wait key) t (.done r)) :
    ∃ c, Tells (run logic guard wait key) t c.steps r ∧
      Takes logic guard wait key c t r ∧ c.Orderly logic guard wait t r := by
  obtain ⟨ss, told⟩ := (leads_run_iff logic guard wait).1 l
  obtain ⟨c, rfl, takes⟩ := takes_of_journal told
  exact ⟨c, told, takes, takes.orderly⟩

theorem orderly_exits_unguarded :
    ∃ (e : ReconcileError) (t : Talk OrganizationSpec) (c : Course OrganizationSpec)
      (o : Organization), e = .finalizer "add" (.store "down") ∧
      Leads (run Organization.logic .inStore ⟨0⟩ ⟨"a", "b"⟩) t (.done (.error e)) ∧
      Takes Organization.logic .inStore ⟨0⟩ ⟨"a", "b"⟩ c t (.error e) ∧
      c.written = some (o, .ok o) ∧ o.Says (.failure e.message .epoch) := by
  let o : Organization := .new "a" "b"
  let p := o.withFinalizer (ResourceKind.finalizer OrganizationSpec)
  let e : ReconcileError := .finalizer "add" (.store "down")
  have l : Leads (run Organization.logic .inStore ⟨0⟩ ⟨"a", "b"⟩)
      [⟨.get ⟨"a", "b"⟩, .ok o⟩, ⟨.update p, .error (.backend "down")⟩, ⟨.clock, .epoch⟩,
        ⟨.updateStatus (failed p e .epoch), .ok (failed p e .epoch)⟩] (.done (.error e)) :=
    .told (.told (.told (.told (.here _))))
  obtain ⟨c, -, takes, orderly⟩ := orderly_exits l
  have written : c.written = some (failed p e .epoch, .ok (failed p e .epoch)) := by
    have once := orderly.once
    rcases hw : c.written with _ | w
    · rw [hw] at once
      cases once
    · rw [hw] at once
      cases once
      rfl
  exact ⟨e, _, c, _, rfl, l, takes, written, (says_failed p e .epoch).1⟩

end Pass
end Tenancy
