/-!
Spans of time in whole nanoseconds, and their text: the greatest of the units second, millisecond,
microsecond and nanosecond that is not above the span, with as many decimals as are exact.
-/

namespace Tenancy

structure Span where
  nanos : Nat
deriving DecidableEq, Repr, Inhabited

namespace Span

def perSecond : Nat := 1000000000

def ofSeconds (n : Nat) : Span := ⟨n * perSecond⟩

def ofMillis (n : Nat) : Span := ⟨n * 1000000⟩

def seconds (d : Span) : Nat := d.nanos / perSecond

def subNanos (d : Span) : Nat := d.nanos % perSecond

def millis (d : Span) : Nat := d.nanos / 1000000

/-- The digits of `part / 10 ^ width` after the point, without zeros at the end. -/
def decimals (width part : Nat) : List Char :=
  let cs := Nat.toDigits 10 part
  let padded := List.replicate (width - cs.length) '0' ++ cs
  (padded.reverse.dropWhile (· == '0')).reverse

def inUnit (nanos width : Nat) (unit : String) : String :=
  let scale := Nat.pow 10 width
  let whole := toString (nanos / scale)
  match decimals width (nanos % scale) with
  | [] => whole ++ unit
  | cs => whole ++ "." ++ String.ofList cs ++ unit

def text (d : Span) : String :=
  if perSecond ≤ d.nanos then inUnit d.nanos 9 "s"
  else if 1000000 ≤ d.nanos then inUnit d.nanos 6 "ms"
  else if 1000 ≤ d.nanos then inUnit d.nanos 3 "µs"
  else inUnit d.nanos 0 "ns"

end Span
end Tenancy
