import Tenancy.Proofs.Reconcile.Exits

/-! What a failure is, however it was come by. A refusal of the store stays a missing object or a
collision of writers under any number of reports that wrap it, so a finalizer that could not be
written is left out of the status just when its writer had collided with another one. -/

namespace Tenancy

/-! ### Refusals of the store -/

namespace StoreError

def Missing (s : StoreError) : Prop := ∃ kind key, s = notFound kind key

/-- Another writer was faster: the version in hand is stale, or the key is taken. -/
def Collides (s : StoreError) : Prop :=
  (∃ kind key held current, s = conflict kind key held current) ∨
    ∃ kind key, s = alreadyExists kind key

theorem isNotFound_iff {s : StoreError} : s.isNotFound = true ↔ s.Missing := by
  cases s <;> simp [isNotFound, Missing]

theorem isConflict_iff {s : StoreError} : s.isConflict = true ↔ s.Collides := by
  cases s <;> simp [isConflict, Collides]

theorem not_missing_and_collides (s : StoreError) : ¬(s.Missing ∧ s.Collides) := by
  cases s <;> simp [Missing, Collides]

end StoreError

/-! ### Wrapped failures -/

namespace ReconcileError

/-- A report of what was being written when something else failed. -/
inductive Wrapper where
  | statusUpdate (kind : String)
  | finalizer (action : String)

def Wrapper.around (w : Wrapper) (cause : ReconcileError) : ReconcileError :=
  match w with
  | statusUpdate kind => .statusUpdate kind cause
  | finalizer action => .finalizer action cause

def wrapped (ws : List Wrapper) (cause : ReconcileError) : ReconcileError :=
  ws.foldr Wrapper.around cause

variable (ws : List Wrapper) (e : ReconcileError) (s : StoreError)

theorem looks_through {look : ReconcileError → Bool}
    (one : ∀ w e, look (Wrapper.around w e) = look e) : look (wrapped ws e) = look e := by
  induction ws with
  | nil => rfl
  | cons w ws ih => exact (one w _).trans ih

theorem isNotFound_wrapped : (wrapped ws e).isNotFound = e.isNotFound :=
  looks_through ws e fun w e => by cases w <;> rfl

theorem isConflict_wrapped : (wrapped ws e).isConflict = e.isConflict :=
  looks_through ws e fun w e => by cases w <;> rfl

theorem isTimeout_wrapped (h : e.isTimeout = false) : (wrapped ws e).isTimeout = false := by
  cases ws with
  | nil => exact h
  | cons w ws => cases w <;> rfl

theorem isNotFound_ofStore : (ofStore s).isNotFound = s.isNotFound := by
  cases s <;> rfl

theorem isConflict_ofStore : (ofStore s).isConflict = s.isConflict := by
  cases s <;> rfl

theorem isTimeout_ofStore : (ofStore s).isTimeout = false := by
  cases s <;> rfl

structure Classed (s : StoreError) (e : ReconcileError) : Prop where
  missing : e.isNotFound = true ↔ s.Missing
  collides : e.isConflict = true ↔ s.Collides
  apart : ¬(e.isNotFound = true ∧ e.isConflict = true)
  timeless : e.isTimeout = false

theorem classed_wrapped : Classed s (wrapped ws (ofStore s)) := by
  have missing : (wrapped ws (ofStore s)).isNotFound = true ↔ s.Missing := by
    rw [isNotFound_wrapped, isNotFound_ofStore, StoreError.isNotFound_iff]
  have collides : (wrapped ws (ofStore s)).isConflict = true ↔ s.Collides := by
    rw [isConflict_wrapped, isConflict_ofStore, StoreError.isConflict_iff]
  refine ⟨missing, collides, ?_, isTimeout_wrapped ws _ (isTimeout_ofStore s)⟩
  rw [missing, collides]
  exact s.not_missing_and_collides

end ReconcileError

namespace Pass

open Program ReconcileError

variable {S : Type} [ResourceKind S] {p : Phase} {o : Resource S} {e : ReconcileError}
  {t : Talk S} {r : Outcome}

theorem Records.unwritten_iff {w : Option (StatusWrite S)} (h : Records o e w t r) :
    w.toList = [] ↔ e.isConflict = true := by
  cases h with
  | stale h => simp [h]
  | recorded h => simp [h]

theorem statusWrites_of_fail (asks : p.transition .failed = .ok (.failed, true))
    (l : Leads (fail p o e) t (.done r)) : statusWrites t = [] ↔ e.isConflict = true := by
  obtain ⟨ss, l⟩ := leads_fail_iff.1 l
  obtain ⟨-, w, records⟩ := records_of_fail asks l
  rw [records.statusWrites]
  exact records.unwritten_iff

theorem Takes.statusWrites_of_failure {logic : Logic S} {guard : Finalizer S} {wait : Span}
    {key : Key} {c : Course S} (takes : Takes logic guard wait key c t r)
    (failed : c.failure = some e) : statusWrites t = [] ↔ e.isConflict = true := by
  rw [takes.once]
  cases takes with
  | vanished | unread | misfit | pending | released | unwritten | converged => cases failed
  | broken _ _ records =>
    cases failed
    exact records.unwritten_iff

inductive WritesFinalizer : Phase → String → Prop
  | add : WritesFinalizer .live "add"
  | remove : WritesFinalizer .deleting "remove"

theorem WritesFinalizer.asks {action : String} (h : WritesFinalizer p action) :
    p.transition .failed = .ok (.failed, true) := by
  cases h <;> rfl

/-- A refusal of the store keeps its class in every stack of wrappers. So a finalizer that could not
be written leaves the status unwritten just when the refusal underneath was a collision of writers,
both where the failure ends the pass and in the pass as a whole. -/
theorem refusals_keep_class (s : StoreError) (ws : List Wrapper) :
    Classed s (wrapped ws (ofStore s)) ∧
      (∀ {p action} {o : Resource S} {t r}, WritesFinalizer p action →
        Leads (fail p o (.finalizer action (wrapped ws (ofStore s)))) t (.done r) →
        (statusWrites t = [] ↔ s.Collides)) ∧
      ∀ {logic : Logic S} {guard wait key c t r action}, Takes logic guard wait key c t r →
        c.failure = some (.finalizer action (wrapped ws (ofStore s))) →
        (statusWrites t = [] ↔ s.Collides) := by
  -- what the step itself reports is one wrapper more
  have outer (action : String) :
      (ReconcileError.finalizer action (wrapped ws (ofStore s))).isConflict = true ↔ s.Collides :=
    (classed_wrapped (.finalizer action :: ws) s).collides
  refine ⟨classed_wrapped ws s, fun writes l => ?_, fun takes failed => ?_⟩
  · exact (statusWrites_of_fail writes.asks l).trans (outer _)
  · exact (takes.statusWrites_of_failure failed).trans (outer _)

theorem refusals_keep_class_both_ways :
    ∃ (o : Organization) (taken full : ReconcileError) (c : Course OrganizationSpec)
      (t : Talk OrganizationSpec),
      taken = .statusUpdate "Organization" (.conflict "Organization a/b") ∧
      taken.isConflict = true ∧
      Leads (fail .deleting o (.finalizer "remove" taken)) []
        (.done (.error (.finalizer "remove" taken))) ∧
      (StoreError.alreadyExists "Organization" "a/b").Collides ∧
      full = .store "full" ∧ full.isConflict = false ∧
      Takes Organization.logic .inStore ⟨0⟩ ⟨"a", "b"⟩ c t (.error (.finalizer "add" full)) ∧
      c.failure = some (.finalizer "add" full) ∧ statusWrites t ≠ [] := by
  let o : Organization := .new "a" "b"
  let p := o.withFinalizer (ResourceKind.finalizer OrganizationSpec)
  let full : ReconcileError := .finalizer "add" (.store "full")
  obtain ⟨classed, silent, -⟩ := refusals_keep_class (S := OrganizationSpec)
    (.alreadyExists "Organization" "a/b") [.statusUpdate "Organization"]
  obtain ⟨classed', -, passes⟩ := refusals_keep_class (S := OrganizationSpec) (.backend "full") []
  have l : Leads (fail .deleting o (.finalizer "remove"
      (.statusUpdate "Organization" (.conflict "Organization a/b")))) [] (.done _) := .here _
  have collides := (silent .remove l).1 rfl
  have takes : Takes Organization.logic .inStore ⟨0⟩ ⟨"a", "b"⟩ _ _ _ :=
    .broken (.live (o := o) rfl rfl) (.guarding (.told (r := .error (.backend "full")) (.here _)))
      (.recorded rfl .epoch (.ok (failed p full .epoch)))
  have alone : ¬(StoreError.backend "full").Collides := by simp [StoreError.Collides]
  exact ⟨o, _, _, _, _, rfl, classed.collides.2 collides, l, collides, rfl,
    Bool.eq_false_iff.2 (mt classed'.collides.1 alone), takes, rfl, mt (passes takes rfl).1 alone⟩

end Pass
end Tenancy
