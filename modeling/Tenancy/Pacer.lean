import Std.Data.ExtTreeMap
import Tenancy.Time.Span

/-!
The pace of reconciling. The first requests for an identity are answered with a short wait and all
later ones with a steady one; the threshold says after how many the pace changes. A count that is
forgotten begins anew.
-/

namespace Tenancy

structure Pacer where
  threshold : UInt32
  shortWait : Span
  steadyWait : Span
  counts : Std.ExtTreeMap String UInt32

namespace Pacer

def new (threshold : UInt32) (shortWait steadyWait : Span) : Pacer :=
  ⟨threshold, shortWait, steadyWait, ∅⟩

def count? (p : Pacer) (identity : String) : Option UInt32 := p.counts[identity]?

def nextDelay (p : Pacer) (identity : String) : Span × Pacer :=
  let n := (p.count? identity).getD 0
  if n ≤ p.threshold then
    (p.shortWait, { p with counts := p.counts.insert identity (n + 1) })
  else (p.steadyWait, p)

def forget (p : Pacer) (identity : String) : Pacer :=
  { p with counts := p.counts.erase identity }

end Pacer

/-- Access to a pacer that may have stopped; the pace is steady then. -/
structure PacerLine where
  pacer : Option Pacer
  steadyWait : Span

namespace PacerLine

def nextDelay (l : PacerLine) (identity : String) : Span × PacerLine :=
  match l.pacer with
  | some p =>
    let (d, p) := p.nextDelay identity
    (d, { l with pacer := some p })
  | none => (l.steadyWait, l)

def count? (l : PacerLine) (identity : String) : Option UInt32 :=
  l.pacer.bind (·.count? identity)

def forget (l : PacerLine) (identity : String) : PacerLine :=
  { l with pacer := l.pacer.map (·.forget identity) }

end PacerLine
end Tenancy
