import Tenancy.Control.Schedule

/-!
Passes that are run directly, by no loop. While such a pass is suspended the rest of the cluster
goes on. A pass that has a deadline is given up if that comes first; otherwise it goes on before
anything else that happens at the same instant.
-/

namespace Tenancy

structure Run where
  cluster : Cluster
  hooks : List Hook

namespace Run

/-- Is suspended for a span; the answer says whether that ended within the deadline. -/
def suspend (r : Run) (deadline : Nat) (d : Span) : Bool × Run :=
  let wake := r.cluster.now + r.cluster.timing.wait r.cluster.now d
  let until_ (t : Nat) : Run := { r with cluster := r.cluster.reach t }
  if deadline ≤ r.cluster.now then (false, r)
  else if wake ≤ deadline then (true, until_ wake)
  else (false, until_ deadline)

end Run

namespace Cluster

variable {S : Type} [Hosted S]

/-- Runs a pass until it is done or given up. It is suspended in a sleep, unless that takes no time,
and in the question for the pace, which takes none. -/
def perform {α : Type} (deadline : Nat) : Pass S α → Run → Option α × Run
  | .done a, r => (some a, r)
  | .ask (.logic (.sleep d)) next, r =>
    if d.nanos = 0 then perform deadline (next ()) r
    else
      match r.suspend deadline d with
      | (true, r) => perform deadline (next ()) r
      | (false, r) => (none, r)
  | .ask (.logic (.entered h)) next, r =>
    perform deadline (next ()) { r with hooks := r.hooks ++ [h] }
  | .ask (.logic (.nextDelay identity)) next, r =>
    let (a, s) := r.cluster.answer false (Request.logic (S := S) (.nextDelay identity))
    match { r with cluster := s }.suspend deadline ⟨0⟩ with
    | (true, r) => perform deadline (next a) r
    | (false, r) => (none, r)
  | .ask q next, r =>
    let (a, s) := r.cluster.answer false q
    perform deadline (next a) { r with cluster := s }

def performAll {α : Type} : Pass S α → Cluster → α × Cluster
  | .done a, s => (a, s)
  | .ask (.logic (.sleep d)) next, s =>
    performAll (next ()) (s.reach (s.now + s.timing.wait s.now d))
  | .ask q next, s =>
    let (a, s) := s.answer false q
    performAll (next a) s

def reconcile (s : Cluster) (logic : Logic S) (key : Key) : Outcome × Run :=
  let limit := s.settings.reconcileTimeout
  let (r, run) :=
    perform (s.now + s.timing.wait s.now limit)
      (Pass.run logic .inStore s.settings.shortWait key) ⟨s, []⟩
  (r.getD (.error (.timeout limit)), run)

end Cluster
end Tenancy
