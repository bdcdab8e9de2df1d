/-!
Days of the proleptic Gregorian calendar, counted from the first of January 1970. A year is taken to
begin in March, so that the day that comes and goes is its last one, and four centuries have a fixed
number of days.
-/

namespace Tenancy

structure Date where
  year : Int
  month : Nat
  day : Nat
deriving DecidableEq, Repr

namespace Date

def isLeap (year : Int) : Bool :=
  year.emod 4 == 0 && (year.emod 100 != 0 || year.emod 400 == 0)

def monthLength (year : Int) (month : Nat) : Nat :=
  if month = 2 then if isLeap year then 29 else 28
  else if month = 4 ∨ month = 6 ∨ month = 9 ∨ month = 11 then 30
  else 31

def isValid (d : Date) : Bool :=
  decide (1 ≤ d.month) && decide (d.month ≤ 12) && decide (1 ≤ d.day)
    && decide (d.day ≤ monthLength d.year d.month)

def perEra : Int := 146097

/-- The day of a year that begins in March. -/
def dayOfYear (d : Date) : Int :=
  let month : Nat := if 2 < d.month then d.month - 3 else d.month + 9
  ((153 * month + 2) / 5 + d.day - 1 : Nat)

def dayNumber (d : Date) : Int :=
  let year := if d.month ≤ 2 then d.year - 1 else d.year
  let yearOfEra := year.emod 400
  year.ediv 400 * perEra + yearOfEra * 365 + yearOfEra.ediv 4 - yearOfEra.ediv 100 + d.dayOfYear
    - 719468

def ofDayNumber (n : Int) : Date :=
  let z := n + 719468
  let era := z.ediv perEra
  let day := z.emod perEra
  let yearOfEra := (day - day.ediv 1460 + day.ediv 36524 - day.ediv 146096).ediv 365
  let dayOfYear := day - (365 * yearOfEra + yearOfEra.ediv 4 - yearOfEra.ediv 100)
  let month := ((5 * dayOfYear + 2).ediv 153).toNat
  let dayOfMonth := dayOfYear.toNat - (153 * month + 2) / 5 + 1
  let month := if month < 10 then month + 3 else month - 9
  ⟨yearOfEra + era * 400 + (if month ≤ 2 then 1 else 0), month, dayOfMonth⟩

end Date
end Tenancy
