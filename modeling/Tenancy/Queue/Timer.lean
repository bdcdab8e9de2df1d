import Tenancy.Metadata
import Tenancy.Time.Span

/-!
Timers that add a key to a queue. Those of one instant go off in the order in which they were set.
How long a timer takes is up to the timing.
-/

namespace Tenancy

structure Timer where
  due : Nat
  rank : Nat
  key : Key
deriving DecidableEq, Repr

namespace Timer

def ripe (now : Nat) (ts : List Timer) : List Timer :=
  (ts.filter (·.due ≤ now)).mergeSort fun t u => t.due ≤ u.due

def next? (ts : List Timer) : Option Nat := (ts.map (·.due)).min?

end Timer

/-- How many nanoseconds a wait takes that begins at a time and is to last for a span. -/
structure Timing where
  wait : Nat → Span → Nat

namespace Timing

/-- Seconds are counted with a sign in 64 bits. -/
def lastInstant : Nat := (1 <<< 63) * Span.perSecond - 1

/-- A wait takes as long as it is told; one with an end that cannot be told takes thirty years of
365 days. -/
def native : Timing where
  wait now d :=
    if now + d.nanos ≤ lastInstant then d.nanos else (Span.ofSeconds (30 * 365 * 86400)).nanos

end Timing
end Tenancy
