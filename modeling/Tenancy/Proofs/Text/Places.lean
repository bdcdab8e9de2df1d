import Mathlib.Data.Nat.Digits.Defs
import Tenancy.Time.Instant

/-! Digits of a number in their places, the most significant first, and the texts that are made of
them: as many as the number needs, or filled up with zeros. -/

namespace Tenancy.Text

def places (b : Nat) : Nat → Nat → List Nat
  | 0, _ => []
  | w + 1, n => places b w (n / b) ++ [n % b]

variable {b w n d : Nat}

@[simp] theorem length_places (b w n : Nat) : (places b w n).length = w := by
  induction w generalizing n with
  | zero => rfl
  | succ w ih => rw [places, List.length_append, ih, List.length_singleton]

theorem lt_of_mem_places (hb : 0 < b) (h : d ∈ places b w n) : d < b := by
  induction w generalizing n with
  | zero => cases h
  | succ w ih =>
    rcases List.mem_append.1 h with h | h
    · exact ih h
    · rw [List.mem_singleton.1 h]
      exact Nat.mod_lt _ hb

theorem foldl_places (m : Nat) (h : n < b ^ w) :
    (places b w n).foldl (fun n d => n * b + d) m = m * b ^ w + n := by
  induction w generalizing n with
  | zero =>
    rw [pow_zero] at h ⊢
    rw [Nat.lt_one_iff.1 h, places, List.foldl_nil, mul_one, add_zero]
  | succ w ih =>
    have less : n / b < b ^ w := Nat.div_lt_of_lt_mul (by rwa [pow_succ'] at h)
    rw [places, List.foldl_append, ih less, List.foldl_cons, List.foldl_nil, add_mul, mul_assoc,
      ← pow_succ, add_assoc, Nat.div_add_mod']

theorem places_eq_cons (b w n : Nat) :
    places b (w + 1) n = n / b ^ w % b :: places b w n := by
  induction w generalizing n with
  | zero =>
    rw [pow_zero, Nat.div_one]
    rfl
  | succ w ih =>
    rw [places, ih, Nat.div_div_eq_div_mul, ← pow_succ', List.cons_append]
    rfl

theorem places_zero (b w : Nat) : places b w 0 = List.replicate w 0 := by
  induction w with
  | zero => rfl
  | succ w ih => rw [places, Nat.zero_div, ih, Nat.zero_mod, List.replicate_succ']

theorem places_of_lt (k : Nat) (h : n < b ^ w) :
    places b (k + w) n = List.replicate k 0 ++ places b w n := by
  induction w generalizing n with
  | zero =>
    obtain rfl : n = 0 := Nat.lt_one_iff.1 h
    rw [add_zero, places_zero, places, List.append_nil]
  | succ w ih =>
    have less : n / b < b ^ w := Nat.div_lt_of_lt_mul (by rwa [pow_succ'] at h)
    rw [← add_assoc, places, ih less, places, List.append_assoc]

theorem toDigits_eq_places (n : Nat) :
    ∃ w, Nat.toDigits 10 n = (places 10 (w + 1) n).map Nat.digitChar ∧ n < 10 ^ (w + 1) ∧
      (w = 0 ∨ 10 ^ w ≤ n) := by
  induction n using Nat.strong_induction_on with
  | _ n ih =>
    by_cases small : n < 10
    · refine ⟨0, ?_, by omega, .inl rfl⟩
      rw [Nat.toDigits_of_lt_base small, places, places, Nat.mod_eq_of_lt small]
      rfl
    · obtain ⟨w, digits, less, least⟩ := ih (n / 10) (by omega)
      refine ⟨w + 1, ?_, ?_, .inr ?_⟩
      · rw [Nat.toDigits_of_base_le (by omega) (by omega), digits]
        show _ = (places 10 (w + 1) (n / 10) ++ [n % 10]).map Nat.digitChar
        rw [List.map_append, List.map_singleton]
      · rw [pow_succ]
        omega
      · rcases least with rfl | least
        · omega
        · rw [pow_succ]
          omega

end Tenancy.Text
