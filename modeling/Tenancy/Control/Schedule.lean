import Tenancy.Control.Cluster

/-!
The order in which a cluster works by itself. What can go on waits in a row; the first of the row
goes on until it is suspended, and joins the row again at its end. Time does not pass before
everything rests, and then goes to the next instant at which something happens.
-/

namespace Tenancy

inductive ObjectKind where
  | organization
  | deployment
deriving DecidableEq, Repr

namespace ObjectKind

def all : List ObjectKind := [organization, deployment]

def on {α : Type} (f : (S : Type) → [Hosted S] → α) : ObjectKind → α
  | organization => f OrganizationSpec
  | deployment => f DeploymentSpec

end ObjectKind

inductive Task where
  | timer (k : ObjectKind) (t : Timer)
  | launch (k : ObjectKind)
  | takeOwn (k : ObjectKind)
  | takeStray (id : Nat)
  | takeRelated
  | work (k : ObjectKind) (id : Nat)
deriving DecidableEq

namespace Loop

variable {S : Type}

def launching (l : Loop S) : Bool :=
  match l.state with
  | .launching => true
  | _ => false

/-- The loop is to be launched, or runs and was told to stop before it did. -/
def starting (l : Loop S) : Bool :=
  match l.state with
  | .launching => true
  | .running => l.told
  | _ => false

def behind (l : Loop S) : Bool := !l.arrived.isEmpty || l.own.due

def behindRelated (l : Loop S) : Bool := !l.concerned.isEmpty || l.related.any Feed.due

def wakes : Worker S → Option Nat
  | .asleep _ _ wake deadline => some (min wake deadline)
  | _ => none

/-- The workers that can go on: first those who were rung for. -/
def busy (l : Loop S) (now : Nat) : List Nat :=
  (l.lobby.waiters.filter fun w => w.suspended && w.ring.isSome).map (·.id) ++
    (l.workers.zipIdx.filterMap fun (w, id) =>
      match w with
      | .free | .working _ _ _ => some id
      | .asleep _ _ wake deadline => if wake ≤ now ∨ deadline ≤ now then some id else none
      | .waiting | .ended => none)

/-- A worker goes on, unless it is about to ask for the pace. -/
def goesOn (l : Loop S) (id : Nat) : Bool :=
  match l.workers[id]? with
  | some .free => true
  | some (.working _ (.ask (.logic (.nextDelay _)) _) _) => false
  | some (.working _ _ _) => true
  | _ => false

def nextDue? (l : Loop S) : Option Nat :=
  (l.timers.map (·.due) ++ l.workers.filterMap wakes).min?

end Loop

namespace Cluster

def ofLoop {α : Type} (s : Cluster) (default : α) (f : {S : Type} → Loop S → α)
    (k : ObjectKind) : α :=
  k.on fun S => ((s.loop? S).map f).getD default

def pending (s : Cluster) : List Task :=
  let timers := ObjectKind.all.flatMap fun k =>
    (Timer.ripe s.now (s.ofLoop [] (·.timers) k)).map (Task.timer k)
  let launches := (ObjectKind.all.filter (s.ofLoop false (·.starting))).map Task.launch
  let own := (ObjectKind.all.filter (s.ofLoop false (·.behind))).map Task.takeOwn
  let strays := s.deps.strays.zipIdx.filterMap fun (l, id) =>
    if l.behindRelated then some (Task.takeStray id) else none
  let related := if s.ofLoop false (·.behindRelated) .deployment then [Task.takeRelated] else []
  let workers := ObjectKind.all.flatMap fun k => (s.ofLoop [] (·.busy s.now) k).map (Task.work k)
  timers ++ launches ++ own ++ strays ++ related ++ workers

/-- Launches a loop, or stops one that was told to. -/
def comeUp (s : Cluster) (S : Type) [Hosted S] : Cluster :=
  if ((s.loop? S).map (·.launching)).getD false then s.launch S else s.halt S

def step (s : Cluster) : Task → Cluster
  | .timer k t => k.on fun S => s.fire S t
  | .launch k => k.on fun S => s.comeUp S
  | .takeOwn k => k.on fun S => s.takeOwn S
  | .takeStray id => s.takeStray id
  | .takeRelated => s.takeRelated
  | .work k id => k.on fun S => s.work S id

def goesOn (s : Cluster) : Task → Bool
  | .timer _ _ => false
  | .launch k => s.ofLoop false (·.starting) k
  | .takeOwn k => s.ofLoop false (·.behind) k
  | .takeStray id => s.deps.strays[id]?.any (·.behindRelated)
  | .takeRelated => s.ofLoop false (·.behindRelated) .deployment
  | .work k id => s.ofLoop false (·.goesOn id) k

def stint : Nat → Task → Cluster → Cluster
  | 0, t, s => s.step t
  | n + 1, t, s =>
    let s := s.step t
    if s.goesOn t then stint n t s else s

def stintLimit : Nat := 128

def join (s : Cluster) (row : List Task) : List Task :=
  row ++ s.pending.filter fun t => !row.contains t

def turns : Nat → List Task → Cluster → Cluster
  | 0, _, s => s
  | n + 1, row, s =>
    match s.join row with
    | [] => s
    | t :: row => turns n row (stint stintLimit t s)

/-- A cluster that does not come to rest is left after so many turns. -/
def patience : Nat := 1 <<< 20

/-- Goes on until everything rests; no time passes. -/
def settle (s : Cluster) : Cluster := turns patience [] s

def nextDue? (s : Cluster) : Option Nat :=
  (ObjectKind.all.filterMap (s.ofLoop none (·.nextDue?))).min?

/-- Goes from one instant at which something happens to the next, at most `n` of them, and then to
the instant `target`, at which nothing happens yet. -/
def jumps (target : Nat) : Nat → Cluster → Cluster
  | 0, s => { s with now := target }
  | n + 1, s =>
    match s.nextDue? with
    | none => { s with now := target }
    | some t =>
      if s.now < t ∧ t < target then jumps target n { s with now := t }.settle
      else { s with now := target }

/-- Lets time pass up to an instant, and everything happen that happens before it. -/
def reach (s : Cluster) (target : Nat) : Cluster := jumps target (target - s.now) s.settle

/-- Lets time pass up to an instant, and everything happen that happens until then. -/
def advanceTo (s : Cluster) (target : Nat) : Cluster := (s.reach target).settle

def advance (s : Cluster) (d : Span) : Cluster := s.advanceTo (s.now + s.timing.wait s.now d)

end Cluster
end Tenancy
