/-!
The phases of a reconcile pass. Each step of a pass is fed to the machine, which says whether the
status has to be written before the pass returns: after the logic was applied, and after every
failure of a step that followed the fetch, but not after a failure to write the status itself.
-/

namespace Tenancy

inductive Phase where
  | fetching
  | deleting
  | live
  | guarded
  | initialized
  | applied
  | converged
  | released
  | pending
  | gone
  | failed
deriving DecidableEq, Repr

inductive Step where
  | fetched (deleted : Bool)
  | vanished
  | cleanupPending
  | finalizerRemoved
  | finalizerAdded
  | resourceInitialized
  | logicApplied
  | statusWritten
  | failed
deriving DecidableEq, Repr

inductive StepError where
  | invalid (phase step : String)
  | terminal (phase : String)
deriving DecidableEq, Repr

namespace StepError

def message : StepError → String
  | invalid phase step => s!"Invalid transition from {phase} on {step}"
  | terminal phase => s!"State {phase} is terminal"

end StepError

namespace Step

def text : Step → String
  | fetched true => "Fetched \x7b deleted: true \x7d"
  | fetched false => "Fetched \x7b deleted: false \x7d"
  | vanished => "Vanished"
  | cleanupPending => "CleanupPending"
  | finalizerRemoved => "FinalizerRemoved"
  | finalizerAdded => "FinalizerAdded"
  | resourceInitialized => "ResourceInitialized"
  | logicApplied => "LogicApplied"
  | statusWritten => "StatusWritten"
  | failed => "Failed"

end Step

namespace Phase

def text : Phase → String
  | fetching => "Fetching"
  | deleting => "Deleting"
  | live => "Live"
  | guarded => "Guarded"
  | initialized => "Initialized"
  | applied => "Applied"
  | converged => "Converged"
  | released => "Released"
  | pending => "Pending"
  | gone => "Gone"
  | failed => "Failed"

def all : List Phase :=
  [fetching, deleting, live, guarded, initialized, applied, converged, released, pending, gone,
    failed]

def isTerminal : Phase → Bool
  | converged | released | pending | gone | failed => true
  | _ => false

/-- The next phase, and whether the status must be written. -/
def next? : Phase → Step → Option (Phase × Bool)
  | fetching, .fetched true => some (deleting, false)
  | fetching, .fetched false => some (live, false)
  | fetching, .vanished => some (gone, false)
  | fetching, .failed => some (failed, false)
  | deleting, .cleanupPending => some (pending, false)
  | deleting, .finalizerRemoved => some (released, false)
  | live, .finalizerAdded => some (guarded, false)
  | guarded, .resourceInitialized => some (initialized, false)
  | initialized, .logicApplied => some (applied, true)
  | applied, .statusWritten => some (converged, false)
  | applied, .failed => some (failed, false)
  | deleting, .failed | live, .failed | guarded, .failed | initialized, .failed =>
    some (failed, true)
  | _, _ => none

def transition (p : Phase) (s : Step) : Except StepError (Phase × Bool) :=
  if p.isTerminal then .error (.terminal p.text)
  else
    match p.next? s with
    | some r => .ok r
    | none => .error (.invalid p.text s.text)

def accepts (p : Phase) (s : Step) : Bool := (p.transition s).isOk

end Phase
end Tenancy
