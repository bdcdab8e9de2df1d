/-!
Glyphs of a byte sequence. A glyph is a character or, for each byte that is part of no UTF-8
character, nothing.
-/

namespace Tenancy.Json

abbrev Glyph := Option Char

namespace Glyph

def ofString (s : String) : List Glyph := s.toList.map some

def tail? (b : UInt8) : Option Nat :=
  if 0x80 ≤ b ∧ b < 0xC0 then some (b.toNat - 0x80) else none

/-- The character that starts here and how many bytes follow its first one. Overlong forms,
surrogates and numbers past the last plane are no characters. -/
def character? : UInt8 → List UInt8 → Option (Char × Nat)
  | a, r =>
    if a < 0x80 then some (Char.ofNat a.toNat, 0)
    else if a < 0xC2 then none
    else if a < 0xE0 then
      match r with
      | b :: _ => (tail? b).map fun b => (Char.ofNat ((a.toNat - 0xC0) * 64 + b), 1)
      | _ => none
    else if a < 0xF0 then
      match r with
      | b :: c :: _ => do
        let n := ((a.toNat - 0xE0) * 64 + (← tail? b)) * 64 + (← tail? c)
        if 0x800 ≤ n ∧ n.isValidChar then some (Char.ofNat n, 2) else none
      | _ => none
    else if a < 0xF5 then
      match r with
      | b :: c :: d :: _ => do
        let n := (((a.toNat - 0xF0) * 64 + (← tail? b)) * 64 + (← tail? c)) * 64 + (← tail? d)
        if 0x10000 ≤ n ∧ n.isValidChar then some (Char.ofNat n, 3) else none
      | _ => none
    else none

def ofBytes : List UInt8 → List Glyph
  | [] => []
  | a :: r =>
    match character? a r with
    | some (c, n) => some c :: ofBytes (r.drop n)
    | none => none :: ofBytes r
termination_by bs => bs.length
decreasing_by all_goals simp only [List.length_drop, List.length_cons]; omega

end Glyph
end Tenancy.Json
