import Tenancy.Json
import Tenancy.Json.Glyph

/-!
JSON numbers. A number without fraction and exponent that fits a 64-bit word, signed when it is
negative, is whole; every other one is a double, whose significand takes in digits as long as it
fits an unsigned word.
-/

namespace Tenancy.Json

structure Numeral where
  negative : Bool
  whole : List Nat
  fraction : List Nat
  exponent : Option Int
deriving Repr

namespace Numeral

def digit? (c : Char) : Option Nat :=
  if '0' ≤ c ∧ c ≤ '9' then some (c.toNat - '0'.toNat) else none

def scanDigits : List Glyph → List Nat × List Glyph
  | some c :: r =>
    match digit? c with
    | some d => let (ds, r) := scanDigits r; (d :: ds, r)
    | none => ([], some c :: r)
  | g => ([], g)

def scanDigits1 (g : List Glyph) : Option (List Nat × List Glyph) :=
  match scanDigits g with
  | ([], _) => none
  | p => some p

def scanWhole (g : List Glyph) : Option (List Nat × List Glyph) :=
  match scanDigits g with
  | ([], _) | (0 :: _ :: _, _) => none
  | p => some p

def scanFraction : List Glyph → Option (List Nat × List Glyph)
  | some '.' :: r => scanDigits1 r
  | g => some ([], g)

def ofDigits (ds : List Nat) : Nat := ds.foldl (fun n d => n * 10 + d) 0

def scanExponent : List Glyph → Option (Option Int × List Glyph)
  | some 'e' :: r | some 'E' :: r =>
    let (negative, r) := match r with
      | some '-' :: r => (true, r)
      | some '+' :: r => (false, r)
      | r => (false, r)
    (scanDigits1 r).map fun (ds, r) =>
      (some (if negative then -(ofDigits ds : Int) else ofDigits ds), r)
  | g => some (none, g)

def scan (g : List Glyph) : Option (Numeral × List Glyph) := do
  let (negative, g) := match g with
    | some '-' :: r => (true, r)
    | g => (false, g)
  let (whole, g) ← scanWhole g
  let (fraction, g) ← scanFraction g
  let (exponent, g) ← scanExponent g
  return (⟨negative, whole, fraction, exponent⟩, g)

/-- Joins digits to a significand while it fits an unsigned word; the second part counts the digits
that are left over. -/
def absorb (m : Nat) : List Nat → Nat × Nat
  | [] => (m, 0)
  | d :: ds => if m * 10 + d < UInt64.size then absorb (m * 10 + d) ds else (m, ds.length + 1)

def value (n : Numeral) : Json :=
  let (m, left) := absorb 0 n.whole
  let double (m : Nat) (e : Int) : Json :=
    match Double.ofDecimal n.negative m e with
    | some x => .double x
    | none => .unfit
  match n.fraction, n.exponent with
  | [], none =>
    if left ≠ 0 then double m left
    else if !n.negative then .int m
    else if m ≠ 0 ∧ m ≤ 1 <<< 63 then .int (-m)
    else double m 0
  | fraction, exponent =>
    let (m, dropped) := absorb m fraction
    double m (left - (fraction.length - dropped) + exponent.getD 0)

end Numeral
end Tenancy.Json
