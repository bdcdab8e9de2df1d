import Tenancy.Double

/-!
The fewest decimal digits that read back as a double. A grid of decimals with `n` digits offers the
two neighbours of the value; the first grid with a neighbour inside the interval of reals that round
to the double wins, and of two such neighbours the nearer one, a tie to the even digit.
-/

namespace Tenancy.Double

/-- The value and the ends of its rounding interval in quarters of the last binary place. -/
structure Neighbourhood where
  low : Nat
  value : Nat
  high : Nat
  closed : Bool
  exponent : Int

/-- Below a power of two the doubles lie twice as close, and the ends belong to the interval when
the significand is even. -/
def neighbourhood (x : Double) : Neighbourhood where
  low := if x.significand = 1 <<< 52 && leastExponent < x.exponent then 4 * x.significand - 1
    else 4 * x.significand - 2
  value := 4 * x.significand
  high := 4 * x.significand + 2
  closed := x.significand % 2 == 0
  exponent := x.exponent - 2

/-- The `e` with `10 ^ e ≤ num / den < 10 ^ (e + 1)`, for a quotient that is not zero. -/
def decimalExponent (num den : Nat) : Int :=
  if den ≤ num then ((Nat.toDigits 10 (num / den)).length : Int) - 1
  else -((Nat.toDigits 10 ((den + num - 1) / num - 1)).length : Int)

def onGrid (a : Nat) (e k : Int) : Nat × Nat :=
  let (n, d) := if 0 ≤ e then (a <<< e.toNat, 1) else (a, 1 <<< (-e).toNat)
  if 0 ≤ k then (n, d * Nat.pow 10 k.toNat) else (n * Nat.pow 10 (-k).toNat, d)

def Neighbourhood.holds (b : Neighbourhood) (k : Int) (point : Nat) : Bool :=
  let (ln, ld) := onGrid b.low b.exponent k
  let (hn, hd) := onGrid b.high b.exponent k
  if b.closed then decide (ln ≤ point * ld) && decide (point * hd ≤ hn)
  else decide (ln < point * ld) && decide (point * hd < hn)

def Neighbourhood.point? (b : Neighbourhood) (k : Int) : Option Nat :=
  let (n, d) := onGrid b.value b.exponent k
  let down := n / d
  let near := roundDiv n d
  let far := if near = down then down + 1 else down
  if b.holds k near then some near else if b.holds k far then some far else none

/-- The first grid at or after the one of `places` digits that has a point; seventeen digits always
do. -/
def search (b : Neighbourhood) (top : Int) : Nat → Nat → Nat × Int
  | 0, _ => (0, 0)
  | fuel + 1, places =>
    let k := top - places + 1
    match b.point? k with
    | some point => (point, k)
    | none => search b top fuel (places + 1)

def trimZeros : Nat → Nat × Int → Nat × Int
  | 0, d => d
  | fuel + 1, (digits, k) =>
    if digits ≠ 0 ∧ digits % 10 = 0 then trimZeros fuel (digits / 10, k + 1) else (digits, k)

def shortest (x : Double) : Nat × Int :=
  let b := x.neighbourhood
  let (n, d) := x.quotient
  trimZeros 17 (search b (decimalExponent n d) 17 1)

structure Layout where
  least : Int
  greatest : Int
  mark : Char

/-- Positional from `1e-5` to below `1e16`, always with a fraction; elsewhere a signed exponent
after `e`. -/
def layout : Layout := ⟨-5, 15, 'e'⟩

def zeros (n : Nat) : List Char := List.replicate n '0'

def Layout.write (l : Layout) (digits : Nat) (k : Int) : List Char :=
  let cs := Nat.toDigits 10 digits
  let top := k + cs.length - 1
  if l.least ≤ top ∧ top ≤ l.greatest then
    if 0 ≤ k then cs ++ zeros k.toNat ++ ['.', '0']
    else if 0 ≤ top then cs.take (top.toNat + 1) ++ '.' :: cs.drop (top.toNat + 1)
    else '0' :: '.' :: zeros (-top - 1).toNat ++ cs
  else
    let fraction := if cs.length = 1 then [] else '.' :: cs.drop 1
    let sign := if top < 0 then '-' else '+'
    cs.take 1 ++ fraction ++ l.mark :: sign :: Nat.toDigits 10 top.natAbs

def text (x : Double) : String :=
  let magnitude := if x.isZero then ['0', '.', '0'] else
    let (digits, k) := x.shortest
    layout.write digits k
  String.ofList (if x.negative then '-' :: magnitude else magnitude)

end Tenancy.Double
