/-!
Finite binary doubles as exact numbers. A double is a sign, a significand below `2 ^ 53` and a power
of two; `nearest` rounds a quotient of naturals to the closest double, a tie to the even
significand, and `ofDecimal` reads a decimal in two roundings: its digits first, then the scaling by
a power of ten.
-/

namespace Tenancy

structure Double where
  negative : Bool
  significand : Nat
  exponent : Int
deriving DecidableEq, Repr, Inhabited

namespace Double

def bound : Nat := 1 <<< 53

def leastExponent : Int := -1074

def greatestExponent : Int := 971

def zero (negative : Bool) : Double := ⟨negative, 0, leastExponent⟩

def isZero (x : Double) : Bool := x.significand == 0

/-- The two zeros are equal, and apart from them every double only to itself. -/
instance : BEq Double where
  beq x y := (x.isZero && y.isZero) || decide (x = y)

/-- `num / den` to the nearest natural, a tie to the even one. -/
def roundDiv (num den : Nat) : Nat :=
  let q := num / den
  let r := num % den
  if 2 * r < den then q
  else if den < 2 * r then q + 1
  else if q % 2 = 0 then q else q + 1

def scaleTwo (num den : Nat) (e : Int) : Nat × Nat :=
  if 0 ≤ e then (num, den <<< e.toNat) else (num <<< (-e).toNat, den)

/-- The exponent at which the double nearest to `num / den` has its significand. -/
def exponentFor (num den : Nat) : Int :=
  let guess := max leastExponent ((num.log2 : Int) - den.log2 - 53)
  let (n, d) := scaleTwo num den guess
  if bound ≤ n / d then guess + 1 else guess

/-- The double nearest to `± num / den`, or nothing if the quotient rounds beyond the greatest
one. -/
def nearest (negative : Bool) (num den : Nat) : Option Double :=
  if num = 0 then some (zero negative)
  else
    let e := exponentFor num den
    let (n, d) := scaleTwo num den e
    let m := roundDiv n d
    let x : Double := if m = bound then ⟨negative, 1 <<< 52, e + 1⟩ else ⟨negative, m, e⟩
    if greatestExponent < x.exponent then none else some x

def quotient (x : Double) : Nat × Nat :=
  if 0 ≤ x.exponent then (x.significand <<< x.exponent.toNat, 1)
  else (x.significand, 1 <<< (-x.exponent).toNat)

def greatestPower : Nat := 308

def powerOfTen (k : Nat) : Double := (nearest false (Nat.pow 10 k) 1).getD (zero false)

def times (x y : Double) : Option Double :=
  nearest x.negative (x.quotient.1 * y.quotient.1) (x.quotient.2 * y.quotient.2)

def per (x y : Double) : Double :=
  (nearest x.negative (x.quotient.1 * y.quotient.2) (x.quotient.2 * y.quotient.1)).getD x

/-- `n` divisions by the greatest power of ten, or as many as it takes to reach zero. -/
def shrink : Nat → Double → Double
  | 0, x => x
  | n + 1, x => if x.isZero then x else shrink n (x.per (powerOfTen greatestPower))

/-- `x * 10 ^ e`, where the power and the product are rounded in turn. A power below the table is
divided out in steps of the greatest one. -/
def scaleTen (x : Double) (e : Int) : Option Double :=
  if x.isZero then some x
  else if 0 ≤ e then
    if (greatestPower : Int) < e then none else x.times (powerOfTen e.toNat)
  else
    let steps := ((-e).toNat - 1) / greatestPower
    some ((shrink steps x).per (powerOfTen ((-e).toNat - steps * greatestPower)))

def ofDecimal (negative : Bool) (digits : Nat) (e : Int) : Option Double :=
  (nearest negative digits 1).bind (scaleTen · e)

end Double
end Tenancy
