import Tenancy.Control.Schedule

/-!
Setting up loops and stopping them. Loops are set up together, each by the name it has, and are
stopped by one signal; that signal is lost with its holder, which stops the loops as well.
-/

namespace Tenancy.Cluster

def loopName (S : Type) [Hosted S] : String := "nddo/" ++ Hosted.noun S

def setupError? (settings : Settings) (S : Type) [Hosted S] : Option ReconcileError :=
  if settings.workers = 0 then
    some (.configuration s!"{Hosted.noun S} controller needs at least one worker")
  else none

def setUpOne (s : Cluster) (byHand : Bool) (k : ObjectKind) :
    Except ReconcileError (String × Cluster) :=
  k.on fun S =>
    match setupError? s.settings S with
    | some e => .error e
    | none => .ok (loopName S, s.addLoop S byHand (k == .deployment))

def setUp (byHand : Bool) :
    List ObjectKind → Cluster → Except ReconcileError (List String × Cluster)
  | [], s => .ok ([], s)
  | k :: ks, s => do
    let (name, s) ← s.setUpOne byHand k
    let (names, s) ← setUp byHand ks s
    return (name :: names, s)

def haltAll (s : Cluster) : Cluster := (s.halt OrganizationSpec).halt DeploymentSpec

/-- Sets up loops to run until the signal is given. The signal is a new one, and loops that wait for
the one before are stopped. -/
def startLoops (s : Cluster) (byHand : Bool) (ks : List ObjectKind) :
    Except ReconcileError (List String × Cluster) :=
  (s.haltAll.setUp byHand ks).map fun (names, s) => (names, { s with signal := true })

def alive (s : Cluster) (k : ObjectKind) : Bool := s.ofLoop false (·.alive) k

/-- Gives the signal; the answer says whether it reached a loop. There is none without a holder. -/
def stop (s : Cluster) : Option Bool × Cluster :=
  if s.signal then (some (ObjectKind.all.any s.alive), s.haltAll) else (none, s)

def dropSignal (s : Cluster) : Bool × Cluster :=
  if s.signal then (true, { s.haltAll with signal := false }) else (false, s)

def report (s : Cluster) (S : Type) [Hosted S] : Loop.Report × Cluster :=
  match s.loop? S with
  | none => (.none, s)
  | some l =>
    let (r, l) := l.report
    (r, s.onLoop fun _ => l)

/-! ### Feeds by hand -/

variable {S : Type} [Hosted S]

def takers (s : Cluster) (S : Type) [Hosted S] : Nat :=
  let side := Hosted.side (S := S) s
  let own := (side.strays ++ side.loop.toList).countP (·.own.takes)
  let relays := (Hosted.relays (S := S) s).countP (·.takes)
  own + relays

def emit (s : Cluster) (c : Change S) : Nat × Cluster := (s.takers S, s.onFeeds (·.emit c))

def closeFeeds (s : Cluster) (S : Type) [Hosted S] : Cluster :=
  s.onFeeds fun (f : Feed S) => if f.byHand then f.close else f

end Tenancy.Cluster
