import Tenancy.Proofs.Text.Places
import Tenancy.Uid

/-! Identifiers are read from their hyphenated texts. -/

namespace Tenancy.Uid

open Text

theorem digits_eq (w n : Nat) : digits w n = (places 16 w n).map Nat.digitChar := by
  induction w generalizing n with
  | zero => rfl
  | succ w ih => rw [digits, ih, places, List.map_append, List.map_singleton]

theorem digit?_digitChar {d : Nat} (h : d < 16) : digit? (Nat.digitChar d) = some d := by
  revert d
  decide

theorem mapM_digit? {ds : List Nat} (h : ∀ d ∈ ds, d < 16) :
    (ds.map Nat.digitChar).mapM digit? = some ds := by
  induction ds with
  | nil => rfl
  | cons d ds ih =>
    rw [List.map_cons, List.mapM_cons, digit?_digitChar (h d (List.mem_cons_self ..)),
      ih fun e he => h e (List.mem_cons_of_mem _ he)]
    rfl

theorem value?_digits (u : Uid) : value? (digits 32 u.bits.toNat) = some u := by
  have small : ∀ d ∈ places 16 32 u.bits.toNat, d < 16 := fun d hd =>
    lt_of_mem_places (by decide) hd
  have less : u.bits.toNat < 16 ^ 32 := by
    have := u.bits.isLt
    omega
  rw [value?, digits_eq, if_pos (by simp), mapM_digit? small, Option.map_some, foldl_places 0 less,
    zero_mul, zero_add, BitVec.ofNat_toNat, BitVec.setWidth_eq]

theorem grouped?_append {a b c d e : List Char} (ha : a.length = 8) (hb : b.length = 4)
    (hc : c.length = 4) (hd : d.length = 4) (he : e.length = 12) :
    grouped? (a ++ '-' :: b ++ '-' :: c ++ '-' :: d ++ '-' :: e) =
      some (a ++ b ++ c ++ d ++ e) := by
  simp [grouped?, List.drop_append, List.drop_of_length_le, ha, hb, hc, hd, he]

section

variable (u : Uid)

theorem length_digits : (digits 32 u.bits.toNat).length = 32 := by
  simp [digits_eq]

theorem plain_of_mem_digits {c : Char} (hc : c ∈ digits 32 u.bits.toNat) :
    c ≠ '\x7b' ∧ c.toLower ≠ 'u' := by
  rw [digits_eq] at hc
  obtain ⟨d, hd, rfl⟩ := List.mem_map.1 hc
  have small : d < 16 := lt_of_mem_places (by decide) hd
  clear hd hc
  revert d
  decide

theorem chars_eq_cons : ∃ c ∈ digits 32 u.bits.toNat, ∃ cs, u.chars = c :: cs := by
  have length := u.length_digits
  unfold chars
  generalize digits 32 u.bits.toNat = ds at length
  cases ds with
  | nil => cases length
  | cons d ds => exact ⟨d, List.mem_cons_self .., _, rfl⟩

theorem length_chars : u.chars.length = 36 := by
  simp [chars, u.length_digits]

theorem grouped?_chars : grouped? u.chars = some (digits 32 u.bits.toNat) := by
  have length := u.length_digits
  unfold chars
  generalize digits 32 u.bits.toNat = cs at length ⊢
  have joined : cs.take 8 ++ (cs.drop 8).take 4 ++ (cs.drop 12).take 4 ++ (cs.drop 16).take 4 ++
      cs.drop 20 = cs := by
    simp [← List.take_add]
  refine (grouped?_append ?_ ?_ ?_ ?_ ?_).trans (congrArg some joined) <;> simp [length]

theorem parse?_text : parse? u.text = some u := by
  obtain ⟨c, hc, cs, starts⟩ := u.chars_eq_cons
  have plain := u.plain_of_mem_digits hc
  have length := u.length_chars
  unfold parse? text
  rw [String.toList_ofList]
  dsimp only
  rw [if_neg (by omega), if_neg, if_neg, grouped?_chars, Option.bind_some, value?_digits]
  · intro urn
    rw [starts] at urn
    exact plain.2 (List.cons.inj urn).1
  · rintro ⟨brace, -⟩
    rw [starts] at brace
    exact plain.1 (Option.some.inj brace)

end

end Tenancy.Uid
