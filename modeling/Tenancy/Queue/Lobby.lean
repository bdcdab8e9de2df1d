import Tenancy.Queue

/-!
Those who wait for a queue. Each of them enters the lobby first, then looks at the queue, and is
suspended if it finds nothing. A ring wakes the first who was not rung for; if there is no one, it
is kept for the next who enters. Who was rung for and leaves without having waited passes the ring
on.
-/

namespace Tenancy

/-- How a waiter was rung for: by the ring that was kept, by one of its own, or with all others. -/
inductive Ring where
  | kept
  | one
  | all
deriving DecidableEq, Repr

structure Waiter where
  id : Nat
  ring : Option Ring
  suspended : Bool
deriving DecidableEq, Repr

structure Lobby where
  queue : WorkQueue
  kept : Bool
  waiters : List Waiter

namespace Lobby

def empty : Lobby := ⟨.empty, false, []⟩

def ringFirst : List Waiter → Option (List Waiter)
  | [] => none
  | w :: ws =>
    if w.ring.isNone then some ({ w with ring := some .one } :: ws)
    else (ringFirst ws).map (w :: ·)

def ring (l : Lobby) : Lobby :=
  match ringFirst l.waiters with
  | some ws => { l with waiters := ws }
  | none => { l with kept := true }

def ringIf (l : Lobby) (joined : Bool) : Lobby := if joined then l.ring else l

def add (l : Lobby) (k : Key) : Lobby :=
  let (q, joined) := l.queue.add k
  { l with queue := q }.ringIf joined

def done (l : Lobby) (k : Key) : Lobby :=
  let (q, joined) := l.queue.done k
  { l with queue := q }.ringIf joined

def shutDown (l : Lobby) : Lobby :=
  { l with
    queue := l.queue.shutDown
    waiters := l.waiters.map fun w => { w with ring := w.ring.or (some .all) } }

/-- Enters the lobby and takes the ring that was kept. -/
def enter (l : Lobby) (id : Nat) : Lobby :=
  ⟨l.queue, false, l.waiters ++ [⟨id, if l.kept then some .kept else none, false⟩]⟩

def find? (l : Lobby) (id : Nat) : Option Waiter := l.waiters.find? (·.id == id)

def drop (l : Lobby) (id : Nat) : Lobby :=
  { l with waiters := l.waiters.filter (·.id != id) }

/-- Leaves without having waited; a ring of its own is passed on. -/
def leave (l : Lobby) (id : Nat) : Lobby :=
  match l.find? id with
  | some w => (l.drop id).ringIf (w.ring == some .one)
  | none => l

inductive Looked where
  | closed
  | key (k : Key)
  /-- There was nothing, but a ring: to be entered and looked at again. -/
  | again
  | suspended
deriving DecidableEq, Repr

/-- Looks at the queue. Whoever takes a key rings if there are more. -/
def look (l : Lobby) (id : Nat) : Looked × Lobby :=
  match l.queue.pop with
  | (.closed, _) => (.closed, l.leave id)
  | (.key k, q) => (.key k, ({ l with queue := q }.ringIf (!q.queue.isEmpty)).leave id)
  | (.nothing, _) =>
    match l.find? id with
    | some ⟨_, some _, _⟩ => (.again, l.drop id)
    | _ =>
      (.suspended, { l with waiters := l.waiters.map fun w =>
        if w.id = id then { w with suspended := true } else w })

/-- Enters and looks, and once more if a kept ring was for nothing. -/
def pop (l : Lobby) (id : Nat) : Looked × Lobby :=
  match (l.enter id).look id with
  | (.again, l) => (l.enter id).look id
  | r => r

def awake? (l : Lobby) : Option Nat :=
  (l.waiters.find? fun w => w.suspended && w.ring.isSome).map (·.id)

def resume (l : Lobby) (id : Nat) : Looked × Lobby := (l.drop id).pop id

end Lobby
end Tenancy
