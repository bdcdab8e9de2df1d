import Tenancy.Proofs.Text.Places
import Tenancy.Proofs.Time.Calendar

/-! Instants are read from their texts, as long as the year has four digits and no second is a leap
second. -/

namespace Tenancy

open Text

structure Instant.Plain (t : Instant) : Prop where
  year : 0 ≤ (Date.ofDayNumber (t.seconds / Instant.perDay)).year
  year' : (Date.ofDayNumber (t.seconds / Instant.perDay)).year ≤ 9999
  nanos : t.nanos < 1000000000

namespace Instant

def placed (w n : Nat) : List Char := (places 10 w n).map Nat.digitChar

variable {w n : Nat} {c : Char} {cs rest : List Char}

theorem padded_eq (hw : 0 < w) (h : n < 10 ^ w) : padded w n = placed w n := by
  obtain ⟨v, digits, less, least⟩ := toDigits_eq_places n
  have le : v + 1 ≤ w := by
    rcases least with rfl | least
    · exact hw
    · exact (Nat.pow_lt_pow_iff_right (by decide)).1 (least.trans_lt h)
  obtain ⟨k, rfl⟩ := Nat.exists_eq_add_of_le' le
  unfold padded placed
  rw [places_of_lt k less, digits, List.map_append, List.map_replicate]
  simp only [List.length_map, length_places, Nat.add_sub_cancel]
  rfl

theorem pair_eq (h : n < 100) : pair n = placed 2 n := by
  have tens : n / 10 % 10 = n / 10 := Nat.mod_eq_of_lt (by omega)
  simp only [pair, placed, places, List.nil_append, List.cons_append, List.map_cons, List.map_nil,
    tens]

theorem digit?_digitChar {d : Nat} (h : d < 10) : digit? (Nat.digitChar d) = some d := by
  revert d
  decide

theorem digitChar_plain {d : Nat} (h : d < 10) :
    isBlank (Nat.digitChar d) = false ∧ Nat.digitChar d ≠ '-' ∧ Nat.digitChar d ≠ '+' := by
  revert d
  decide

theorem trimStart_cons (h : isBlank c = false) : trimStart (c :: cs) = c :: cs := by
  rw [trimStart, List.dropWhile_cons, if_neg (by rw [h]; exact Bool.false_ne_true)]

theorem placed_succ (w n : Nat) : ∃ d cs, d < 10 ∧ placed (w + 1) n = Nat.digitChar d :: cs := by
  unfold placed
  cases hp : places 10 (w + 1) n with
  | nil => simpa using congrArg List.length hp
  | cons d ds => exact ⟨d, _, lt_of_mem_places (by decide) (hp ▸ List.mem_cons_self ..), rfl⟩

theorem trimStart_placed (w n : Nat) (rest : List Char) :
    trimStart (placed (w + 1) n ++ rest) = placed (w + 1) n ++ rest := by
  obtain ⟨d, cs, hd, digits⟩ := placed_succ w n
  rw [digits, List.cons_append, trimStart_cons (digitChar_plain hd).1]

/-! ### Numbers -/

def Ends (rest : List Char) : Prop := ∀ c ∈ rest.head?, digit? c = none

theorem scanMore_of_digits {ds : List Nat} {width : Nat} (m : Nat) (digits : ∀ d ∈ ds, d < 10)
    (le : ds.length ≤ width) (ends : ds.length = width ∨ Ends rest) :
    scanMore width m (ds.map Nat.digitChar ++ rest) =
      (ds.foldl (fun n d => n * 10 + d) m, rest) := by
  induction ds generalizing width m with
  | nil =>
    rcases ends with rfl | ends
    · rfl
    · cases rest with
      | nil => cases width <;> rfl
      | cons c cs =>
        cases width with
        | zero => rfl
        | succ width =>
          simp only [List.map_nil, List.nil_append, scanMore, ends c rfl, List.foldl_nil]
  | cons d ds ih =>
    cases width with
    | zero => cases le
    | succ width =>
      have hd := digit?_digitChar (digits d (List.mem_cons_self ..))
      have rest := ih (m * 10 + d) (fun e he => digits e (List.mem_cons_of_mem _ he))
        (Nat.le_of_succ_le_succ le) (ends.imp_left Nat.succ.inj)
      simpa only [List.map_cons, List.cons_append, scanMore, hd, List.foldl_cons] using rest

theorem scanNumber_placed {width : Nat} (h : n < 10 ^ (w + 1)) (le : w ≤ width)
    (ends : w = width ∨ Ends rest) :
    scanNumber width (placed (w + 1) n ++ rest) = some (n, rest) := by
  unfold placed
  have value := foldl_places 0 h
  cases hp : places 10 (w + 1) n with
  | nil => simpa using congrArg List.length hp
  | cons d ds =>
    have small : ∀ e ∈ d :: ds, e < 10 := fun e he =>
      lt_of_mem_places (by decide) (hp ▸ he)
    have length : ds.length = w := by simpa using (congrArg List.length hp).symm
    have more : scanMore width d (ds.map Nat.digitChar ++ rest) = _ := scanMore_of_digits d
      (fun e he => small e (List.mem_cons_of_mem _ he)) (length ▸ le) (length ▸ ends)
    rw [hp, List.foldl_cons, zero_mul, zero_add, zero_mul, zero_add] at value
    rw [List.map_cons, List.cons_append, scanNumber,
      digit?_digitChar (small d (List.mem_cons_self ..)), Option.map_some, more, value]

theorem scanBounded_pair {low high : Nat} (least : low ≤ n) (most : n ≤ high) (h : n < 100)
    (rest : List Char) : scanBounded low high (pair n ++ rest) = some (n, rest) := by
  rw [pair_eq h, scanBounded, trimStart_placed]
  have number : scanNumber 1 (placed 2 n ++ rest) = some (n, rest) :=
    scanNumber_placed h (Nat.le_refl 1) (.inl rfl)
  simp only [number, Option.bind_eq_bind, Option.bind_some, least, most, and_self, if_true]

theorem scanMark_cons (h : isBlank c = false) : scanMark c (c :: cs) = some cs := by
  rw [scanMark, trimStart_cons h]
  exact if_pos rfl

theorem scanYear_yearText {y : Int} (h : 0 ≤ y) (h' : y ≤ 9999) (rest : List Char) :
    scanYear (yearText y ++ rest) = some (y, rest) := by
  have four : y.toNat < 10 ^ (3 + 1) := by omega
  rw [yearText, if_pos ⟨h, h'⟩, padded_eq (by decide) four]
  have number : scanNumber 3 (placed 4 y.toNat ++ rest) = some (y.toNat, rest) :=
    scanNumber_placed four (Nat.le_refl 3) (.inl rfl)
  unfold scanYear
  rw [trimStart_placed]
  obtain ⟨d, cs, hd, digits⟩ := placed_succ 3 y.toNat
  have unsigned := (digitChar_plain hd).2
  rw [digits, List.cons_append] at number ⊢
  split
  next heq => exact (unsigned.1 (List.cons.inj heq).1).elim
  next heq => exact (unsigned.2 (List.cons.inj heq).1).elim
  next =>
    rw [number, Option.map_some]
    exact congrArg (fun n => some (n, rest)) (Int.toNat_of_nonneg h)

/-! ### Parts -/

theorem ends_zulu : Ends ['Z'] := fun c hc => by
  obtain rfl : 'Z' = c := Option.some.inj hc
  rfl

theorem scanDecimals_point {k : Nat} (h : n < 10 ^ (w + 1)) (nine : w + 1 + k = 9) :
    scanDecimals ('.' :: (placed (w + 1) n ++ ['Z'])) = some (n * 10 ^ k, ['Z']) := by
  have number := scanNumber_placed h (show w ≤ 8 by omega) (.inr ends_zulu)
  have read : (placed (w + 1) n ++ ['Z']).length - ['Z'].length = w + 1 := by
    simp only [placed, List.length_append, List.length_map, length_places, Nat.add_sub_cancel]
  have rest : (['Z'] : List Char).dropWhile (digit? · |>.isSome) = ['Z'] := rfl
  have places : 9 - (w + 1) = k := by omega
  simp only [scanDecimals, number, Option.bind_eq_bind, Option.bind_some, read, rest, places]
  rfl

theorem scanDecimals_decimals {nanos : Nat} (h : nanos < 1000000000) :
    scanDecimals (decimals nanos ++ ['Z']) = some (nanos, ['Z']) := by
  unfold decimals
  split
  next zero =>
    subst zero
    rfl
  next =>
    split
    next milli =>
      have less : nanos / 1000000 < 10 ^ (2 + 1) := by omega
      have back : nanos / 1000000 * 10 ^ 6 = nanos := by omega
      rw [padded_eq (by decide) less, List.cons_append, scanDecimals_point less (k := 6) rfl, back]
    next =>
      split
      next micro =>
        have less : nanos / 1000 < 10 ^ (5 + 1) := by omega
        have back : nanos / 1000 * 10 ^ 3 = nanos := by omega
        rw [padded_eq (by decide) less, List.cons_append, scanDecimals_point less (k := 3) rfl,
          back]
      next =>
        have less : nanos < 10 ^ (8 + 1) := h
        rw [padded_eq (by decide) less, List.cons_append, scanDecimals_point less (k := 0) rfl,
          pow_zero, mul_one]

theorem scanDate_of_valid {d : Date} (valid : d.isValid = true) (year : 0 ≤ d.year)
    (year' : d.year ≤ 9999) (rest : List Char) :
    scanDate (yearText d.year ++ '-' :: pair d.month ++ '-' :: pair d.day ++ rest) =
      some (d, rest) := by
  simp only [Date.isValid, Bool.and_eq_true, decide_eq_true_eq] at valid
  obtain ⟨⟨⟨month, month'⟩, day⟩, day'⟩ := valid
  have day'' : d.day ≤ 31 := by
    unfold Date.monthLength at day'
    split at day'
    · split at day' <;> omega
    · split at day' <;> omega
  have hyphen : isBlank '-' = false := by decide
  unfold scanDate
  simp only [List.append_assoc, List.cons_append]
  rw [scanYear_yearText year year']
  simp only [Option.bind_eq_bind, Option.bind_some]
  rw [scanMark_cons hyphen, Option.bind_some, scanBounded_pair month month' (by omega),
    Option.bind_some]
  dsimp only
  rw [scanMark_cons hyphen, Option.bind_some, scanBounded_pair day day'' (by omega)]
  rfl

theorem scanTime_of_lt {h m s nanos : Nat} (hour : h < 24) (minute : m < 60) (second : s < 60)
    (hn : nanos < 1000000000) :
    scanTime (pair h ++ ':' :: pair m ++ ':' :: pair s ++ decimals nanos ++ ['Z']) =
      some ((h * 3600 + m * 60 + s, nanos), ['Z']) := by
  have colon : isBlank ':' = false := by decide
  have leap : s / 60 = 0 := by omega
  unfold scanTime
  simp only [List.append_assoc, List.cons_append]
  rw [scanBounded_pair (Nat.zero_le _) (by omega) (by omega)]
  simp only [Option.bind_eq_bind, Option.bind_some]
  rw [scanMark_cons colon, Option.bind_some, scanBounded_pair (Nat.zero_le _) (by omega) (by omega),
    Option.bind_some]
  dsimp only
  rw [scanMark_cons colon, Option.bind_some, scanBounded_pair (Nat.zero_le _) (by omega) (by omega),
    Option.bind_some]
  dsimp only
  rw [scanDecimals_decimals hn, leap]
  rfl

/-! ### Texts -/

theorem chars_eq {t : Instant} (nanos : t.nanos < 1000000000) {s : Nat}
    (hs : (s : Int) = t.seconds % perDay) :
    t.chars =
      let d : Date := .ofDayNumber (t.seconds / perDay)
      yearText d.year ++ '-' :: pair d.month ++ '-' :: pair d.day ++ 'T' ::
        (pair (s / 3600) ++ ':' :: pair (s / 60 % 60) ++ ':' :: pair (s % 60) ++ decimals t.nanos ++
          ['Z']) := by
  have leap : t.nanos / 1000000000 = 0 := Nat.div_eq_of_lt nanos
  have nat : (t.seconds.emod perDay).toNat = s := by
    show (t.seconds % perDay).toNat = s
    rw [← hs, Int.toNat_natCast]
  rw [Instant.chars]
  simp only [nat, leap, add_zero, Nat.mod_eq_of_lt nanos, List.append_assoc, List.cons_append]
  rfl

theorem parse?_text {t : Instant} (h : t.Plain) : parse? t.text = some t := by
  obtain ⟨year, year', nanos⟩ := h
  obtain ⟨s, hs⟩ : ∃ s : Nat, (s : Int) = t.seconds % perDay :=
    ⟨(t.seconds % perDay).toNat, Int.toNat_of_nonneg (Int.emod_nonneg _ (by decide))⟩
  have less : t.seconds % perDay < 86400 := Int.emod_lt_of_pos _ (by decide)
  have chars := chars_eq nanos hs
  have valid := Date.isValid_ofDayNumber (t.seconds / perDay)
  have number := Date.dayNumber_ofDayNumber (t.seconds / perDay)
  generalize hd : Date.ofDayNumber (t.seconds / perDay) = date at *
  have day : Date.ofDayNumber (t.seconds.ediv perDay) = date := hd
  have time := scanTime_of_lt (h := s / 3600) (m := s / 60 % 60) (s := s % 60) (by omega)
    (Nat.mod_lt _ (by decide)) (Nat.mod_lt _ (by decide)) nanos
  have seconds : s / 3600 * 3600 + s / 60 % 60 * 60 + s % 60 = s := by omega
  have back : date.dayNumber * perDay + s - 0 = t.seconds := by
    rw [number, hs, sub_zero, Int.ediv_mul_add_emod]
  have range : inRange date.year = true := by
    simp only [inRange, Bool.and_eq_true, decide_eq_true_eq]
    omega
  have zulu : trimStart ['Z'] = ['Z'] := by decide
  unfold parse? text
  rw [String.toList_ofList, chars, scanDate_of_valid valid year year']
  simp only [Option.bind_eq_bind, Option.bind_some, time, zulu, scanOffset, seconds, back, day,
    range, valid]
  rfl

end Instant
end Tenancy
