import Tenancy.Reconcile.Finalizer

/-!
Reconcile passes. A pass fetches one object, and either guards it with the finalizer of its kind,
applies the logic and writes the status, or, if its deletion was asked for, cleans up and takes the
finalizer away. Every step goes through the phases, which say whether a failure is to be recorded in
the status; one that shows that the object in hand is stale is not. A pass tells its outcome, and if
asked the steps that it fed to the phases.
-/

namespace Tenancy

inductive Request (S : Type) where
  | get (key : Key)
  | update (o : Resource S)
  | updateStatus (o : Resource S)
  | clock
  | logic (a : Ask)

@[reducible] def Request.Answer {S : Type} : Request S → Type
  | get _ | update _ | updateStatus _ => Except StoreError (Resource S)
  | clock => Instant
  | logic a => a.Answer

abbrev Pass (S α : Type) := Program (Request S) Request.Answer α

/-- An error, or the wait before the key is worked on again; none if only a change will do that. -/
abbrev Outcome := Except ReconcileError (Option Span)

/-- The steps that a pass fed to the phases, in order, and its outcome. -/
structure Journal where
  steps : List Step
  outcome : Outcome

namespace Pass

/-- What a pass tells at its end: the outcome alone, or the steps as well. -/
class Telling (α : Type) where
  ends : Outcome → α
  feeds {S : Type} : Step → Pass S α → Pass S α

export Telling (ends feeds)

@[default_instance]
instance : Telling Outcome where
  ends r := r
  feeds _ p := p

instance : Telling Journal where
  ends r := ⟨[], r⟩
  feeds s p := do
    let ⟨ss, r⟩ ← p
    return ⟨s :: ss, r⟩

variable {S α : Type}

def get (key : Key) : Pass S (Except StoreError (Resource S)) := .question (Request.get key)

def updateStatus (o : Resource S) : Pass S (Except StoreError (Resource S)) :=
  .question (Request.updateStatus o)

def clock : Pass S Instant := .question Request.clock

def inquire (i : Inquiry α) : Pass S α := Program.embed .logic (fun _ r => r) i

def amend (a : Amendment S α) : Pass S α := Program.embed .update (fun _ r => r) a

/-- Feeds a step to the phases, which never reject one that a pass takes, and has it told. -/
def advance [Telling α] (p : Phase) (s : Step) (next : Phase → Bool → Pass S α) : Pass S α :=
  feeds s <|
    match p.transition s with
    | .ok (q, persist) => next q persist
    | .error e => return ends (.error (.invalidStep e))

section
variable [ResourceKind S] [Telling α]

/-! ### Status -/

def writeStatus (o : Resource S) : Pass S (Except ReconcileError Unit) := do
  match ← updateStatus o with
  | .ok _ => return .ok ()
  | .error e => return .error (.statusUpdate (ResourceKind.title S) (.ofStore e))

/-- Ends the pass with an error, which is recorded if the phase asks for it and the object in hand
may be current. -/
def fail (p : Phase) (o : Resource S) (e : ReconcileError) : Pass S α :=
  advance p .failed fun _ persist => do
    if persist && !e.isConflict then
      let now ← clock
      match ← writeStatus (o.setConditions [.failure e.message now, .notReady now]) with
      | .ok () => return ends (.error e)
      | .error e => return ends (.error e)
    else return ends (.error e)

def conclude (logic : Logic S) (p : Phase) (persist : Bool) (o : Resource S) : Pass S α := do
  let go (o : Resource S) : Pass S α :=
    advance p .statusWritten fun _ _ => do
      return ends (.ok (some (← inquire (logic.delay o))))
  if persist then
    let now ← clock
    let o := o.setConditions [.success now, .ready now]
    match ← writeStatus o with
    | .ok () => go o
    | .error e => advance p .failed fun _ _ => return ends (.error e)
  else go o

/-! ### The two ways of a pass -/

def live (logic : Logic S) (guard : Finalizer S) (p : Phase) (o : Resource S) : Pass S α := do
  match ← amend (guard.add o) with
  | (o, .error e) => fail p o (.finalizer "add" e)
  | (o, .ok ()) => advance p .finalizerAdded fun p _ => do
    match ← inquire (logic.prepare o) with
    | (o, .error e) => fail p o e
    | (o, .ok ()) => advance p .resourceInitialized fun p _ => do
      match ← inquire (logic.apply o) with
      | (o, .error e) => fail p o e
      | (o, .ok ()) => advance p .logicApplied fun p persist => conclude logic p persist o

def finalize (logic : Logic S) (guard : Finalizer S) (shortWait : Span) (p : Phase)
    (o : Resource S) : Pass S α := do
  match ← inquire (logic.cleanUp o) with
  | .error e => fail p o e
  | .ok false => advance p .cleanupPending fun _ _ => return ends (.ok (some shortWait))
  | .ok true =>
    match ← amend (guard.remove o) with
    | (o, .error e) => fail p o (.finalizer "remove" e)
    | (o, .ok ()) => advance p .finalizerRemoved fun _ _ => do
      inquire (logic.release o)
      return ends (.ok none)

def run (logic : Logic S) (guard : Finalizer S) (shortWait : Span) (key : Key) :
    Pass S α := do
  match ← get key with
  | .error e =>
    if e.isNotFound then advance .fetching .vanished fun _ _ => return ends (.ok none)
    else advance .fetching .failed fun _ _ => return ends (.error (.ofStore e))
  | .ok o =>
    if !o.fits then
      advance .fetching .failed fun _ _ =>
        return ends (.error (.unexpectedResource (ResourceKind.title S) o.typeMeta.kind))
    else
      advance .fetching (.fetched o.wasDeleted) fun p _ =>
        if o.wasDeleted then finalize logic guard shortWait p o else live logic guard p o

end
end Pass
end Tenancy
