import Tenancy.Control.Feed
import Tenancy.Pacer
import Tenancy.Queue.Lobby
import Tenancy.Queue.Timer
import Tenancy.Reconcile.Pass
import Tenancy.Settings

/-!
Control loops. A loop reads the changes of its own kind, and perhaps those of a related one, into a
work queue, from which its workers take keys to reconcile. A pass that wants to be repeated leaves a
timer that adds the key again.
-/

namespace Tenancy

inductive Worker (S : Type) where
  | free
  | waiting
  | working (key : Key) (pass : Pass S Outcome) (deadline : Nat)
  /-- In the sleep of a pass, which goes on afterwards unless its deadline has come first. -/
  | asleep (key : Key) (rest : Pass S Outcome) (wake deadline : Nat)
  | ended

inductive LoopState where
  | launching
  | running
  | stopping
  | failed (e : ReconcileError)
  | reported

structure Loop (S : Type) where
  settings : Settings
  timing : Timing
  logic : Logic S
  lobby : Lobby
  pacer : Pacer
  own : Feed S
  /-- The keys of a change that was taken in and that are still to be queued. -/
  arrived : List Key
  related : Option (Feed OrganizationSpec)
  /-- The keys that a related change concerns and that are still to be queued. -/
  concerned : List Key
  workers : List (Worker S)
  timers : List Timer
  state : LoopState
  /-- The signal to stop was given before the loop ran. -/
  told : Bool

namespace Loop

variable {S : Type}

def new (settings : Settings) (timing : Timing) (logic : Logic S) (byHand withRelated : Bool) :
    Loop S where
  settings := settings
  timing := timing
  logic := logic
  lobby := .empty
  pacer := .new settings.threshold settings.shortWait settings.steadyWait
  own := .open_ byHand
  arrived := []
  related := if withRelated then some (.open_ byHand) else none
  concerned := []
  workers := []
  timers := []
  state := .launching
  told := false

def enqueue (l : Loop S) (k : Key) : Loop S := { l with lobby := l.lobby.add k }

def enqueueAll (l : Loop S) (ks : List Key) : Loop S := ks.foldl enqueue l

/-- Takes in the oldest change of the own kind. The keys of all its versions are to be queued,
unless the change can be passed over. -/
def takeOwn (l : Loop S) : Loop S :=
  let (c, own) := l.own.take
  let l := { l with own }
  match c with
  | none => l
  | some c => if c.generationChanged then { l with arrived := c.objects.map (·.key) } else l

def enqueueArrived (l : Loop S) : Loop S :=
  match l.arrived with
  | [] => l
  | k :: ks => { l with arrived := ks }.enqueue k

/-- A change is taken in once the keys of the one before are queued. -/
def readOwn (l : Loop S) : Loop S := if l.arrived.isEmpty then l.takeOwn else l.enqueueArrived

def enqueueConcerned (l : Loop S) : Loop S :=
  match l.concerned with
  | [] => l
  | k :: ks => { l with concerned := ks }.enqueue k

/-- The objects that there are; without them the loop does not start. The feeds are read either
way. -/
def launch (l : Loop S) (listed : Except StoreError (List (Resource S))) : Loop S :=
  let l := { l with own := l.own.read, related := l.related.map Feed.read }
  match listed with
  | .error e => { l with state := .failed (.ofStore e) }
  | .ok os =>
    let l := l.enqueueAll (os.map (·.key))
    { l with state := .running, workers := List.replicate (max 1 l.settings.workers.toNat) .free }

/-- The workers finish what they do, and no change is read any more. A loop that does not run yet
stops once it does. -/
def halt (l : Loop S) : Loop S :=
  match l.state with
  | .running =>
    { l with
      state := .stopping, lobby := l.lobby.shutDown, own := l.own.cut, arrived := []
      related := l.related.map Feed.cut, concerned := [] }
  | .launching => { l with told := true }
  | _ => l

def fire (l : Loop S) (t : Timer) : Loop S :=
  { l with timers := l.timers.filter (·.rank != t.rank) }.enqueue t.key

def setWorker (l : Loop S) (id : Nat) (w : Worker S) : Loop S :=
  { l with workers := l.workers.set id w }

def looked (l : Loop S) (id : Nat) (begin_ : Key → Worker S) : Lobby.Looked → Loop S
  | .closed => l.setWorker id .ended
  | .key k => l.setWorker id (begin_ k)
  | .suspended => l.setWorker id .waiting
  | .again => l

/-- The end of a pass: the key comes back after the wait that the pass asks for, or after the one
that follows a failure, and is released. -/
def finish (l : Loop S) (id : Nat) (now rank : Nat) (key : Key) (r : Outcome) : Loop S :=
  let wait := match r with
    | .ok wait => wait
    | .error _ => some l.settings.errorBackoff
  let timers := match wait with
    | some d => l.timers ++ [⟨now + l.timing.wait now d, rank, key⟩]
    | none => l.timers
  { l with timers, lobby := l.lobby.done key }.setWorker id .free

def rung (l : Loop S) (id : Nat) : Bool :=
  match l.lobby.find? id with
  | some w => w.suspended && w.ring.isSome
  | none => false

def idle (l : Loop S) : Bool :=
  l.workers.all fun
    | .ended => true
    | _ => false

def alive (l : Loop S) : Bool :=
  match l.state with
  | .launching | .running => true
  | .stopping => !l.idle
  | .failed _ | .reported => false

def listens (l : Loop S) : Bool := l.own.active || l.related.any (·.active)

inductive Report where
  | running
  | result (r : Except ReconcileError Unit)
  | none

/-- The result of a loop that has come to its end is there to be taken once. -/
def report (l : Loop S) : Report × Loop S :=
  match l.state with
  | .launching | .running => (.running, l)
  | .stopping => if l.idle then (.result (.ok ()), { l with state := .reported }) else (.running, l)
  | .failed e => (.result (.error e), { l with state := .reported })
  | .reported => (.none, l)

end Loop
end Tenancy
