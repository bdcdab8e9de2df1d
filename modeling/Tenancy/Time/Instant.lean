import Tenancy.Text.Blank
import Tenancy.Time.Calendar

/-!
Instants: a second since the start of 1970 and the nanoseconds in it, of which a leap second holds
up to two billion. They are written as RFC 3339 in UTC with the fewest decimals out of 0, 3, 6 and 9
that are exact. Reading is more liberal: blanks may stand between the parts, numbers may be short,
and the offset may be written without its colon, as `Z` or as `UTC`.
-/

namespace Tenancy

structure Instant where
  seconds : Int
  nanos : Nat
deriving DecidableEq, Repr, Inhabited

namespace Instant

def epoch : Instant := ⟨0, 0⟩

def perDay : Int := 86400

def pair (n : Nat) : List Char := [Nat.digitChar (n / 10), Nat.digitChar (n % 10)]

def padded (width n : Nat) : List Char :=
  let cs := Nat.toDigits 10 n
  List.replicate (width - cs.length) '0' ++ cs

def yearText (y : Int) : List Char :=
  if 0 ≤ y ∧ y ≤ 9999 then padded 4 y.toNat
  else (if y < 0 then '-' else '+') :: padded 4 y.natAbs

def decimals (nanos : Nat) : List Char :=
  if nanos = 0 then []
  else if nanos % 1000000 = 0 then '.' :: padded 3 (nanos / 1000000)
  else if nanos % 1000 = 0 then '.' :: padded 6 (nanos / 1000)
  else '.' :: padded 9 nanos

def chars (t : Instant) : List Char :=
  let date := Date.ofDayNumber (t.seconds.ediv perDay)
  let second := (t.seconds.emod perDay).toNat
  let leap := t.nanos / 1000000000
  yearText date.year ++ '-' :: pair date.month ++ '-' :: pair date.day
    ++ 'T' :: pair (second / 3600) ++ ':' :: pair (second / 60 % 60)
    ++ ':' :: pair (second % 60 + leap) ++ decimals (t.nanos % 1000000000) ++ ['Z']

def text (t : Instant) : String := String.ofList t.chars

/-! ### Reading -/

def digit? (c : Char) : Option Nat :=
  if '0' ≤ c ∧ c ≤ '9' then some (c.toNat - '0'.toNat) else none

def scanMore : Nat → Nat → List Char → Nat × List Char
  | 0, n, cs => (n, cs)
  | _, n, [] => (n, [])
  | width + 1, n, c :: cs =>
    match digit? c with
    | some d => scanMore width (n * 10 + d) cs
    | none => (n, c :: cs)

def scanNumber (width : Nat) : List Char → Option (Nat × List Char)
  | [] => none
  | c :: cs => (digit? c).map fun d => scanMore width d cs

def scanBounded (low high : Nat) (cs : List Char) : Option (Nat × List Char) := do
  let (n, cs) ← scanNumber 1 (Text.trimStart cs)
  if low ≤ n ∧ n ≤ high then some (n, cs) else none

def scanYear (cs : List Char) : Option (Int × List Char) :=
  match Text.trimStart cs with
  | '-' :: cs => (scanNumber cs.length cs).map fun (n, cs) => (-(n : Int), cs)
  | '+' :: cs => (scanNumber cs.length cs).map fun (n, cs) => ((n : Int), cs)
  | cs => (scanNumber 3 cs).map fun (n, cs) => ((n : Int), cs)

def scanMark (mark : Char) (cs : List Char) : Option (List Char) :=
  match Text.trimStart cs with
  | c :: cs => if c = mark then some cs else none
  | [] => none

/-- The nanoseconds after a point; digits from the tenth on are dropped. -/
def scanDecimals : List Char → Option (Nat × List Char)
  | '.' :: cs => do
    let (n, rest) ← scanNumber 8 cs
    return (n * Nat.pow 10 (9 - (cs.length - rest.length)), rest.dropWhile (digit? · |>.isSome))
  | cs => some (0, cs)

/-- The seconds that local time is ahead of UTC. -/
def scanOffset : List Char → Option (Int × List Char)
  | 'Z' :: cs | 'z' :: cs => some (0, cs)
  | c :: h :: i :: cs => do
    if ['u', 'U'].contains c && ['t', 'T'].contains h && ['c', 'C'].contains i then
      return (0, cs)
    let sign : Int ← if c = '+' then some 1 else if c = '-' ∨ c = '−' then some (-1) else none
    let hours := (← digit? h) * 10 + (← digit? i)
    match cs.dropWhile fun c => c == ':' || Text.isBlank c with
    | m :: n :: cs =>
      let minutes := (← digit? m) * 10 + (← digit? n)
      if minutes < 60 ∧ hours < 24 then some (sign * (hours * 3600 + minutes * 60), cs) else none
    | _ => none
  | _ => none

def scanDate (cs : List Char) : Option (Date × List Char) := do
  let (year, cs) ← scanYear cs
  let (month, cs) ← scanBounded 1 12 (← scanMark '-' cs)
  let (day, cs) ← scanBounded 1 31 (← scanMark '-' cs)
  return (⟨year, month, day⟩, cs)

/-- The second of the day and the nanoseconds; a leap second goes on from second 59. -/
def scanTime (cs : List Char) : Option ((Nat × Nat) × List Char) := do
  let (hour, cs) ← scanBounded 0 23 cs
  let (minute, cs) ← scanBounded 0 59 (← scanMark ':' cs)
  let (second, cs) ← scanBounded 0 60 (← scanMark ':' cs)
  let (nanos, cs) ← scanDecimals cs
  let leap := second / 60
  return ((hour * 3600 + minute * 60 + second - leap, nanos + leap * 1000000000), cs)

def inRange (year : Int) : Bool := decide (-262143 ≤ year) && decide (year ≤ 262142)

def parse? (s : String) : Option Instant := do
  let (date, cs) ← scanDate s.toList
  let cs ← match cs with
    | 'T' :: cs | 't' :: cs | ' ' :: cs => some cs
    | _ => none
  let ((second, nanos), cs) ← scanTime cs
  let (offset, cs) ← scanOffset (Text.trimStart cs)
  let t : Instant := ⟨date.dayNumber * perDay + second - offset, nanos⟩
  if (Text.trimStart cs).isEmpty && inRange date.year && date.isValid
      && inRange (Date.ofDayNumber (t.seconds.ediv perDay)).year then
    some t
  else none

end Instant
end Tenancy
