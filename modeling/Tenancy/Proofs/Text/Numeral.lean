import Mathlib.Data.Nat.Notation
import Tenancy.Settings

/-! Numerals. A number is read exactly from decimal digits that denote one below the limit, perhaps
with a plus before them. -/

namespace Tenancy

inductive Numeral : List Char → Nat → Prop
  | plain {cs : List Char} (some_ : cs ≠ []) (digits : ∀ c ∈ cs, c.isDigit = true) :
    Numeral cs (Nat.ofDigitChars 10 cs 0)
  | signed {cs : List Char} (some_ : cs ≠ []) (digits : ∀ c ∈ cs, c.isDigit = true) :
    Numeral ('+' :: cs) (Nat.ofDigitChars 10 cs 0)

section

variable {limit m n : Nat} {c : Char} {cs : List Char}

theorem isDigit_iff : c.isDigit = true ↔ '0' ≤ c ∧ c ≤ '9' := by
  simp [Char.isDigit, Char.le_def]

theorem ofDigitChars_cons (c : Char) (cs : List Char) (m : Nat) :
    Nat.ofDigitChars 10 (c :: cs) m =
      Nat.ofDigitChars 10 cs (m * 10 + (c.toNat - '0'.toNat)) := by
  unfold Nat.ofDigitChars
  rw [List.foldl_cons, Nat.mul_comm]

theorem le_ofDigitChars (m : Nat) (cs : List Char) : m ≤ Nat.ofDigitChars 10 cs m := by
  induction cs generalizing m with
  | nil => exact Nat.le_refl m
  | cons c cs ih =>
    rw [ofDigitChars_cons]
    have grown := ih (m * 10 + (c.toNat - '0'.toNat))
    omega

theorem readDigits_eq_ok (below : m < limit) : readDigits limit m cs = .ok n ↔
    (∀ c ∈ cs, c.isDigit = true) ∧ Nat.ofDigitChars 10 cs m = n ∧ n < limit := by
  induction cs generalizing m with
  | nil =>
    have same : readDigits limit m [] = .ok n ↔ m = n := by simp [readDigits]
    rw [same]
    exact ⟨fun h => ⟨List.forall_mem_nil _, h, h ▸ below⟩, fun h => h.2.1⟩
  | cons c cs ih =>
    rw [readDigits, ofDigitChars_cons, List.forall_mem_cons, isDigit_iff]
    by_cases digit : '0' ≤ c ∧ c ≤ '9'
    · rw [if_pos digit]
      by_cases less : m * 10 + (c.toNat - '0'.toNat) < limit
      · dsimp only
        rw [if_pos less, ih less]
        simp only [digit, true_and, and_self]
      · -- once the limit is reached no digit leads back below it
        have grown := le_ofDigitChars (m * 10 + (c.toNat - '0'.toNat)) cs
        dsimp only
        rw [if_neg less]
        exact ⟨nofun, fun h => absurd h.2.2 (by omega)⟩
    · rw [if_neg digit]
      exact ⟨nofun, fun h => absurd h.1.1 digit⟩

theorem not_digits_plus {ds : List Char} : ¬∀ d ∈ '+' :: ds, d.isDigit = true := fun h =>
  absurd (h '+' List.mem_cons_self) (by decide)

theorem readNumber_eq_ok (positive : 0 < limit) :
    readNumber limit cs = .ok n ↔ Numeral cs n ∧ n < limit := by
  unfold readNumber
  split
  · -- no digits at all
    refine ⟨nofun, fun ⟨numeral, _⟩ => ?_⟩
    cases numeral with
    | plain some_ => exact absurd rfl some_
  · -- a plus alone
    refine ⟨nofun, fun ⟨numeral, _⟩ => ?_⟩
    cases numeral with
    | plain _ digits => exact absurd digits not_digits_plus
    | signed some_ => exact absurd rfl some_
  · rename_i ds more
    rw [readDigits_eq_ok positive]
    constructor
    · rintro ⟨digits, rfl, less⟩
      exact ⟨.signed (fun none_ => more (none_ ▸ rfl)) digits, less⟩
    · rintro ⟨numeral, less⟩
      cases numeral with
      | plain _ digits => exact absurd digits not_digits_plus
      | signed _ digits => exact ⟨digits, rfl, less⟩
  · rename_i some_ _ unsigned
    rw [readDigits_eq_ok positive]
    constructor
    · rintro ⟨digits, rfl, less⟩
      exact ⟨.plain some_ digits, less⟩
    · rintro ⟨numeral, less⟩
      cases numeral with
      | plain _ digits => exact ⟨digits, rfl, less⟩
      | signed => exact absurd rfl (unsigned _)

end

end Tenancy
