import Tenancy.Queue.Lobby
import Tenancy.Queue.Timer

/-!
A queue in use: waiters, who are served in the order in which they began to wait, and timers, which
add a key when their time has come.
-/

namespace Tenancy

structure Session where
  lobby : Lobby
  newcomers : List Nat
  waiters : Nat
  timers : List Timer
  timing : Timing
  now : Nat
  rank : Nat

namespace Session

/-- Waiters who came back, with the key that they got or without one. -/
abbrev Returned := List (Nat × Option Key)

def empty : Session := ⟨.empty, [], 0, [], .native, 0, 0⟩

def onLobby (s : Session) (f : Lobby → Lobby) : Session := { s with lobby := f s.lobby }

def addAfter (s : Session) (k : Key) (d : Span) : Session :=
  { s with
    timers := s.timers ++ [⟨s.now + s.timing.wait s.now d, s.rank, k⟩], rank := s.rank + 1 }

def wait (s : Session) : Nat × Session :=
  (s.waiters, { s with newcomers := s.newcomers ++ [s.waiters], waiters := s.waiters + 1 })

def pop (s : Session) : Lobby.Looked × Session :=
  let (r, lobby) := s.lobby.pop s.waiters
  (r, { s with lobby := lobby.leave s.waiters })

def fire (s : Session) : Session :=
  { s with
    lobby := (Timer.ripe s.now s.timers).foldl (fun l t => l.add t.key) s.lobby
    timers := s.timers.filter (s.now < ·.due) }

def turn? (s : Session) : Option (Returned × Session) :=
  let come (id : Nat) (r : Lobby.Looked × Lobby) (s : Session) : Returned × Session :=
    let s := { s with lobby := r.2 }
    match r.1 with
    | .key k => ([(id, some k)], s)
    | .closed => ([(id, none)], s)
    | .suspended | .again => ([], s)
  match s.newcomers with
  | id :: ids => some (come id (s.lobby.pop id) { s with newcomers := ids })
  | [] => s.lobby.awake?.map fun id => come id (s.lobby.resume id) s

def turns : Nat → Session → Returned × Session
  | 0, s => ([], s)
  | n + 1, s =>
    match s.turn? with
    | none => ([], s)
    | some (r, s) =>
      let (rs, s) := turns n s
      (r ++ rs, s)

/-- Everyone who can goes on: a waiter has a turn at first and one for each ring. -/
def settle (s : Session) : Returned × Session := turns (3 * s.waiters + 1) s.fire

def advanceTo (target : Nat) : Nat → Session → Returned × Session
  | 0, s => ([], { s with now := target })
  | n + 1, s =>
    match Timer.next? s.timers with
    | none => ([], { s with now := target })
    | some t =>
      if t ≤ target then
        let (r, s) := { s with now := max s.now t }.settle
        let (rs, s) := advanceTo target n s
        (r ++ rs, s)
      else ([], { s with now := target })

def advance (s : Session) (d : Span) : Returned × Session :=
  advanceTo (s.now + s.timing.wait s.now d) (s.timers.length + 1) s

end Session
end Tenancy
