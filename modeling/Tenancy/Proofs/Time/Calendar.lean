import Tenancy.Time.Calendar

/-! Days have dates. The date of a day is valid, and the day of that date. -/

namespace Tenancy.Date

/-- The year of an era that a day falls in, and its day of that year; the last day of a year that
begins in March is that of a leap year. -/
theorem year_of_day {d : Int} (h : 0 ≤ d) (h' : d < 146097) :
    let y := (d - d / 1460 + d / 36524 - d / 146096) / 365
    let k := d - (365 * y + y / 4 - y / 100)
    0 ≤ y ∧ y < 400 ∧ 0 ≤ k ∧
      (k < 365 ∨ k = 365 ∧ (y + 1) % 4 = 0 ∧ ((y + 1) % 100 ≠ 0 ∨ y = 399)) := by
  dsimp only
  by_cases last : d = 146096
  · subst last
    decide
  -- the day in its century, of which the last one has a day more, and in its four years there
  obtain ⟨c, e, hc, hc', he, he', rfl⟩ :
      ∃ c e : Int, 0 ≤ c ∧ c ≤ 3 ∧ 0 ≤ e ∧ e < 36524 ∧ d = 36524 * c + e :=
    ⟨d / 36524, d % 36524, by omega, by omega, by omega, by omega, by omega⟩
  obtain ⟨q, f, hq, hq', hf, hf', hqf, rfl⟩ : ∃ q f : Int,
      0 ≤ q ∧ q ≤ 24 ∧ 0 ≤ f ∧ f ≤ 1460 ∧ (q = 24 → f < 1460) ∧ e = 1461 * q + f :=
    ⟨e / 1461, e % 1461, by omega, by omega, by omega, by omega, by omega, by omega⟩
  have era : (36524 * c + (1461 * q + f)) / 146096 = 0 := by omega
  have century : (36524 * c + (1461 * q + f)) / 36524 = c := by omega
  obtain ⟨j, hj⟩ : ∃ j, j = min (f / 365) 3 := ⟨_, rfl⟩
  have year : (36524 * c + (1461 * q + f) - (36524 * c + (1461 * q + f)) / 1460 + c - 0) / 365 =
      100 * c + 4 * q + j := by omega
  rw [era, century, year]
  have fours : (100 * c + 4 * q + j) / 4 = 25 * c + q := by omega
  have hundreds : (100 * c + 4 * q + j) / 100 = c := by omega
  rw [fours, hundreds]
  omega

def inYear (era y : Int) (k : Nat) : Date :=
  let m := (5 * k + 2) / 153
  ⟨y + era * 400 + (if m < 10 then 0 else 1), if m < 10 then m + 3 else m - 9,
    k - (153 * m + 2) / 5 + 1⟩

theorem ofDayNumber_eq (n : Int) :
    ∃ (era y : Int) (k : Nat), ofDayNumber n = inYear era y k ∧ 0 ≤ y ∧ y < 400 ∧
      (k < 365 ∨ k = 365 ∧ (y + 1) % 4 = 0 ∧ ((y + 1) % 100 ≠ 0 ∨ y = 399)) ∧
      era * 146097 + y * 365 + y / 4 - y / 100 + k - 719468 = n := by
  obtain ⟨y0, y1, k0, k1⟩ := year_of_day (d := (n + 719468) % 146097) (by omega) (by omega)
  generalize hd : (n + 719468) % 146097 = d at *
  generalize hy : (d - d / 1460 + d / 36524 - d / 146096) / 365 = y at *
  generalize hk : d - (365 * y + y / 4 - y / 100) = k at *
  obtain ⟨k, rfl⟩ := Int.eq_ofNat_of_zero_le k0
  refine ⟨(n + 719468) / 146097, y, k, ?_, y0, y1, by omega, by omega⟩
  have date : ofDayNumber n =
      let m := ((5 * (k : Int) + 2) / 153).toNat
      let month := if m < 10 then m + 3 else m - 9
      ⟨y + (n + 719468) / 146097 * 400 + (if month ≤ 2 then 1 else 0), month,
        (k : Int).toNat - (153 * m + 2) / 5 + 1⟩ := by
    rw [← hk, ← hy, ← hd]
    rfl
  have month : ((5 * (k : Int) + 2) / 153).toNat = (5 * k + 2) / 153 := by omega
  have last : (5 * k + 2) / 153 ≤ 11 := by omega
  rw [date, inYear]
  dsimp only
  rw [month, Int.toNat_natCast]
  congr 2
  by_cases hm : (5 * k + 2) / 153 < 10
  · rw [if_pos hm, if_pos hm, if_neg (by omega)]
  · rw [if_neg hm, if_neg hm, if_pos (by omega)]

theorem dayNumber_ofDayNumber (n : Int) : (ofDayNumber n).dayNumber = n := by
  obtain ⟨era, y, k, date, y0, y1, hk, day⟩ := ofDayNumber_eq n
  rw [date, ← day]
  have month : (5 * k + 2) / 153 ≤ 11 := by omega
  have rest : (153 * ((5 * k + 2) / 153) + 2) / 5 ≤ k := by omega
  unfold dayNumber dayOfYear inYear
  dsimp only
  generalize (5 * k + 2) / 153 = m at *
  have year : (if (if m < 10 then m + 3 else m - 9) ≤ 2 then
      y + era * 400 + (if m < 10 then 0 else 1) - 1
      else y + era * 400 + (if m < 10 then 0 else 1)) = y + era * 400 := by
    split <;> split <;> omega
  have march : (if 2 < (if m < 10 then m + 3 else m - 9) then
      (if m < 10 then m + 3 else m - 9) - 3 else (if m < 10 then m + 3 else m - 9) + 9) = m := by
    split <;> split <;> omega
  rw [year, march]
  have e1 : (y + era * 400).emod 400 = y := by
    show (y + era * 400) % 400 = y
    omega
  have e2 : (y + era * 400).ediv 400 = era := by
    show (y + era * 400) / 400 = era
    omega
  rw [e1, e2]
  show era * 146097 + y * 365 + y / 4 - y / 100 + _ - 719468 = _
  omega

theorem le_monthLength {year : Int} {month day : Nat} (h : day ≤ 31)
    (short : month = 4 ∨ month = 6 ∨ month = 9 ∨ month = 11 → day ≤ 30)
    (february : month = 2 → day ≤ 28 ∨ day = 29 ∧ isLeap year = true) :
    day ≤ monthLength year month := by
  unfold monthLength
  split
  next second =>
    rcases february second with less | ⟨rfl, leap⟩
    · split <;> omega
    · exact Nat.le_of_eq (if_pos leap).symm
  next =>
    split
    next is => exact short is
    next => exact h

theorem isValid_ofDayNumber (n : Int) : (ofDayNumber n).isValid = true := by
  obtain ⟨era, y, k, date, y0, y1, hk, -⟩ := ofDayNumber_eq n
  have last : (5 * k + 2) / 153 ≤ 11 := by omega
  have leap (h : k = 365) : isLeap (y + era * 400 + 1) = true := by
    have four : (y + era * 400 + 1) % 4 = 0 := by omega
    have hundred : (y + era * 400 + 1) % 100 ≠ 0 ∨ (y + era * 400 + 1) % 400 = 0 := by omega
    simp only [isLeap, Bool.and_eq_true, Bool.or_eq_true, beq_iff_eq, bne_iff_ne]
    exact ⟨four, hundred⟩
  rw [date]
  unfold isValid inYear
  simp only [Bool.and_eq_true, decide_eq_true_eq]
  refine ⟨⟨⟨?_, ?_⟩, by omega⟩, le_monthLength (by omega) (fun h => ?_) fun h => ?_⟩
  · split <;> omega
  · split <;> omega
  · split at h <;> omega
  · split at h
    next => omega
    next is =>
      rw [if_neg is]
      by_cases hk : k = 365
      · exact .inr ⟨by omega, leap hk⟩
      · exact .inl (by omega)

end Tenancy.Date
