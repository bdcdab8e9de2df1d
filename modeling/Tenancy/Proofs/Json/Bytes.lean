import Tenancy.Proofs.Json.Parsing

/-! The bytes of a text are read as its characters. -/

namespace Tenancy.Json

namespace Glyph

theorem tail?_ofNat {n : Nat} (h : n < 64) : tail? (UInt8.ofNat (n + 0x80)) = some n := by
  revert n
  decide

theorem lt_ofNat (k : Nat) {n : Nat} (hn : n < 256) (hk : k < 256) (h : n < k) :
    UInt8.ofNat n < UInt8.ofNat k := by
  rwa [UInt8.lt_iff_toNat_lt, UInt8.toNat_ofNat', UInt8.toNat_ofNat', Nat.mod_eq_of_lt hn,
    Nat.mod_eq_of_lt hk]

theorem not_lt_ofNat (k : Nat) {n : Nat} (hn : n < 256) (h : k ≤ n) :
    ¬UInt8.ofNat n < UInt8.ofNat k := by
  rw [UInt8.lt_iff_toNat_lt, UInt8.toNat_ofNat', UInt8.toNat_ofNat', Nat.mod_eq_of_lt hn,
    Nat.mod_eq_of_lt (Nat.lt_of_le_of_lt h hn)]
  exact Nat.not_lt_of_le h

section

variable {m b c d : Nat} (rest : List UInt8)

theorem character?_one (h : m < 128) :
    character? (UInt8.ofNat m) rest = some (Char.ofNat m, 0) := by
  have lt : UInt8.ofNat m < 0x80 := lt_ofNat 0x80 (by omega) (by decide) h
  rw [character?.eq_def]
  dsimp only
  rw [if_pos lt, UInt8.toNat_ofNat', Nat.mod_eq_of_lt (by omega)]

theorem character?_two (hm : m < 32) (hb : b < 64) (least : 2 ≤ m) :
    character? (UInt8.ofNat (m + 0xC0)) (UInt8.ofNat (b + 0x80) :: rest) =
      some (Char.ofNat (m * 64 + b), 1) := by
  have byte : m + 0xC0 < 256 := by omega
  have one : ¬UInt8.ofNat (m + 0xC0) < 0x80 := not_lt_ofNat 0x80 byte (by omega)
  have tail : ¬UInt8.ofNat (m + 0xC0) < 0xC2 := not_lt_ofNat 0xC2 byte (by omega)
  have two : UInt8.ofNat (m + 0xC0) < 0xE0 := lt_ofNat 0xE0 byte (by decide) (by omega)
  have lead : (m + 0xC0) % 2 ^ 8 - 0xC0 = m := by omega
  rw [character?.eq_def]
  dsimp only
  rw [if_neg one, if_neg tail, if_pos two]
  simp only [tail?_ofNat hb, Option.map_some, UInt8.toNat_ofNat', lead]

theorem character?_three (hm : m < 16) (hb : b < 64) (hc : c < 64)
    (least : 0x800 ≤ (m * 64 + b) * 64 + c) (valid : ((m * 64 + b) * 64 + c).isValidChar) :
    character? (UInt8.ofNat (m + 0xE0))
      (UInt8.ofNat (b + 0x80) :: UInt8.ofNat (c + 0x80) :: rest) =
      some (Char.ofNat ((m * 64 + b) * 64 + c), 2) := by
  have byte : m + 0xE0 < 256 := by omega
  have one : ¬UInt8.ofNat (m + 0xE0) < 0x80 := not_lt_ofNat 0x80 byte (by omega)
  have tail : ¬UInt8.ofNat (m + 0xE0) < 0xC2 := not_lt_ofNat 0xC2 byte (by omega)
  have two : ¬UInt8.ofNat (m + 0xE0) < 0xE0 := not_lt_ofNat 0xE0 byte (by omega)
  have three : UInt8.ofNat (m + 0xE0) < 0xF0 := lt_ofNat 0xF0 byte (by decide) (by omega)
  have lead : (m + 0xE0) % 2 ^ 8 - 0xE0 = m := by omega
  rw [character?.eq_def]
  dsimp only
  rw [if_neg one, if_neg tail, if_neg two, if_pos three]
  simp only [tail?_ofNat hb, tail?_ofNat hc, Option.bind_eq_bind, Option.bind_some,
    UInt8.toNat_ofNat', lead]
  exact if_pos ⟨least, valid⟩

theorem character?_four (hm : m < 5) (hb : b < 64) (hc : c < 64) (hd : d < 64)
    (least : 0x10000 ≤ ((m * 64 + b) * 64 + c) * 64 + d)
    (valid : (((m * 64 + b) * 64 + c) * 64 + d).isValidChar) :
    character? (UInt8.ofNat (m + 0xF0))
      (UInt8.ofNat (b + 0x80) :: UInt8.ofNat (c + 0x80) :: UInt8.ofNat (d + 0x80) :: rest) =
      some (Char.ofNat (((m * 64 + b) * 64 + c) * 64 + d), 3) := by
  have byte : m + 0xF0 < 256 := by omega
  have one : ¬UInt8.ofNat (m + 0xF0) < 0x80 := not_lt_ofNat 0x80 byte (by omega)
  have tail : ¬UInt8.ofNat (m + 0xF0) < 0xC2 := not_lt_ofNat 0xC2 byte (by omega)
  have two : ¬UInt8.ofNat (m + 0xF0) < 0xE0 := not_lt_ofNat 0xE0 byte (by omega)
  have three : ¬UInt8.ofNat (m + 0xF0) < 0xF0 := not_lt_ofNat 0xF0 byte (by omega)
  have four : UInt8.ofNat (m + 0xF0) < 0xF5 := lt_ofNat 0xF5 byte (by decide) (by omega)
  have lead : (m + 0xF0) % 2 ^ 8 - 0xF0 = m := by omega
  rw [character?.eq_def]
  dsimp only
  rw [if_neg one, if_neg tail, if_neg two, if_neg three, if_pos four]
  simp only [tail?_ofNat hb, tail?_ofNat hc, tail?_ofNat hd, Option.bind_eq_bind,
    Option.bind_some, UInt8.toNat_ofNat', lead]
  exact if_pos ⟨least, valid⟩

end

theorem character?_utf8EncodeChar (x : Char) (rest : List UInt8) : ∃ a r,
    String.utf8EncodeChar x = a :: r ∧ character? a (r ++ rest) = some (x, r.length) := by
  have valid : Nat.isValidChar x.val.toNat := x.valid
  have back : Char.ofNat x.val.toNat = x := Char.ofNat_toNat x
  have most : x.val.toNat < 0x110000 := by
    rcases valid with less | ⟨-, less⟩ <;> omega
  unfold String.utf8EncodeChar
  dsimp only
  generalize x.val.toNat = v at valid back most
  split
  next one => exact ⟨_, _, rfl, back ▸ character?_one _ (by omega)⟩
  next =>
  split
  next two =>
    have read := character?_two (m := v / 64) (b := v % 64) rest (by omega) (by omega) (by omega)
    have value : v / 64 * 64 + v % 64 = v := by omega
    have lead : v / 64 % 32 = v / 64 := by omega
    rw [value, back] at read
    exact ⟨_, _, rfl, lead.symm ▸ read⟩
  next =>
  split
  next three =>
    have value : (v / 4096 * 64 + v / 64 % 64) * 64 + v % 64 = v := by omega
    have read := character?_three (m := v / 4096) (b := v / 64 % 64) (c := v % 64) rest (by omega)
      (by omega) (by omega) (by omega) (by rwa [value])
    have lead : v / 4096 % 16 = v / 4096 := by omega
    rw [value, back] at read
    exact ⟨_, _, rfl, lead.symm ▸ read⟩
  next =>
    have value : ((v / 262144 * 64 + v / 4096 % 64) * 64 + v / 64 % 64) * 64 + v % 64 = v := by
      omega
    have read := character?_four (m := v / 262144) (b := v / 4096 % 64) (c := v / 64 % 64)
      (d := v % 64) rest (by omega) (by omega) (by omega) (by omega) (by omega) (by rwa [value])
    have lead : v / 262144 % 8 = v / 262144 := by omega
    rw [value, back] at read
    exact ⟨_, _, rfl, lead.symm ▸ read⟩

theorem ofBytes_utf8Encode (cs : List Char) :
    ofBytes (cs.flatMap String.utf8EncodeChar) = glyphs cs := by
  induction cs with
  | nil => rw [List.flatMap_nil, ofBytes, glyphs, List.map_nil]
  | cons c cs ih =>
    obtain ⟨a, r, bytes, read⟩ := character?_utf8EncodeChar c (cs.flatMap String.utf8EncodeChar)
    rw [List.flatMap_cons, bytes, List.cons_append, ofBytes, read]
    dsimp only
    rw [List.drop_left, ih, glyphs, glyphs, List.map_cons]

theorem of_tail?_eq_some {a : UInt8} {n : Nat} (h : tail? a = some n) :
    n < 64 ∧ a = UInt8.ofNat (n + 0x80) := by
  unfold tail? at h
  split at h
  · rename_i range
    have least : 128 ≤ a.toNat := range.1
    have most : a.toNat < 192 := range.2
    have value := Option.some.inj h
    subst value
    exact ⟨by omega, by rw [Nat.sub_add_cancel least, UInt8.ofNat_toNat]⟩
  · cases h

theorem val_ofNat {v : Nat} (valid : v.isValidChar) : (Char.ofNat v).val.toNat = v := by
  rw [Char.ofNat, dif_pos valid]
  rfl

/-! ### Back to bytes -/

section

variable {m b c d : Nat}

theorem utf8EncodeChar_one (h : m < 128) :
    String.utf8EncodeChar (Char.ofNat m) = [UInt8.ofNat m] := by
  have value : (Char.ofNat m).val.toNat = m := val_ofNat (.inl (by omega))
  unfold String.utf8EncodeChar
  dsimp only
  rw [value, if_pos (by omega)]

theorem utf8EncodeChar_two (hm : m < 32) (hb : b < 64) (least : 2 ≤ m) :
    String.utf8EncodeChar (Char.ofNat (m * 64 + b)) =
      [UInt8.ofNat (m + 0xC0), UInt8.ofNat (b + 0x80)] := by
  have value : (Char.ofNat (m * 64 + b)).val.toNat = m * 64 + b := val_ofNat (.inl (by omega))
  have lead : (m * 64 + b) / 64 % 32 = m := by omega
  have last : (m * 64 + b) % 64 = b := by omega
  unfold String.utf8EncodeChar
  dsimp only
  rw [value, if_neg (by omega), if_pos (by omega), lead, last]

theorem utf8EncodeChar_three (hm : m < 16) (hb : b < 64) (hc : c < 64)
    (least : 0x800 ≤ (m * 64 + b) * 64 + c) (valid : ((m * 64 + b) * 64 + c).isValidChar) :
    String.utf8EncodeChar (Char.ofNat ((m * 64 + b) * 64 + c)) =
      [UInt8.ofNat (m + 0xE0), UInt8.ofNat (b + 0x80), UInt8.ofNat (c + 0x80)] := by
  have value := val_ofNat valid
  have lead : ((m * 64 + b) * 64 + c) / 4096 % 16 = m := by omega
  have second : ((m * 64 + b) * 64 + c) / 64 % 64 = b := by omega
  have last : ((m * 64 + b) * 64 + c) % 64 = c := by omega
  unfold String.utf8EncodeChar
  dsimp only
  rw [value, if_neg (by omega), if_neg (by omega), if_pos (by omega), lead, second, last]

theorem utf8EncodeChar_four (hm : m < 5) (hb : b < 64) (hc : c < 64) (hd : d < 64)
    (least : 0x10000 ≤ ((m * 64 + b) * 64 + c) * 64 + d)
    (valid : (((m * 64 + b) * 64 + c) * 64 + d).isValidChar) :
    String.utf8EncodeChar (Char.ofNat (((m * 64 + b) * 64 + c) * 64 + d)) =
      [UInt8.ofNat (m + 0xF0), UInt8.ofNat (b + 0x80), UInt8.ofNat (c + 0x80),
        UInt8.ofNat (d + 0x80)] := by
  have value := val_ofNat valid
  have lead : (((m * 64 + b) * 64 + c) * 64 + d) / 262144 % 8 = m := by omega
  have second : (((m * 64 + b) * 64 + c) * 64 + d) / 4096 % 64 = b := by omega
  have third : (((m * 64 + b) * 64 + c) * 64 + d) / 64 % 64 = c := by omega
  have last : (((m * 64 + b) * 64 + c) * 64 + d) % 64 = d := by omega
  unfold String.utf8EncodeChar
  dsimp only
  rw [value, if_neg (by omega), if_neg (by omega), if_neg (by omega), lead, second, third, last]

end

theorem eq_utf8EncodeChar {a : UInt8} {r : List UInt8} {x : Char} {n : Nat}
    (h : character? a r = some (x, n)) : a :: r = String.utf8EncodeChar x ++ r.drop n := by
  rw [character?.eq_def] at h
  dsimp only at h
  split at h
  next one =>
    cases h
    have upper : a.toNat < 128 := one
    rw [utf8EncodeChar_one upper, UInt8.ofNat_toNat]
    rfl
  next =>
  split at h
  next => cases h
  next least =>
  split at h
  next two =>
    split at h
    next b r =>
      obtain ⟨b', hb, ⟨⟩⟩ := Option.map_eq_some_iff.1 h
      obtain ⟨small, rfl⟩ := of_tail?_eq_some hb
      have lower : 0xC2 ≤ a.toNat := Nat.le_of_not_lt least
      have upper : a.toNat < 0xE0 := two
      rw [utf8EncodeChar_two (by omega) small (by omega), Nat.sub_add_cancel (by omega),
        UInt8.ofNat_toNat]
      rfl
    next => cases h
  next least =>
  split at h
  next three =>
    split at h
    next b c r =>
      obtain ⟨b', hb, h⟩ := Option.bind_eq_some_iff.1 h
      obtain ⟨c', hc, h⟩ := Option.bind_eq_some_iff.1 h
      split at h
      next fits =>
        cases h
        obtain ⟨small, rfl⟩ := of_tail?_eq_some hb
        obtain ⟨small', rfl⟩ := of_tail?_eq_some hc
        have lower : 0xE0 ≤ a.toNat := Nat.le_of_not_lt least
        have upper : a.toNat < 0xF0 := three
        rw [utf8EncodeChar_three (by omega) small small' fits.1 fits.2, Nat.sub_add_cancel lower,
          UInt8.ofNat_toNat]
        rfl
      next => cases h
    next => cases h
  next least =>
  split at h
  next four =>
    split at h
    next b c d r =>
      obtain ⟨b', hb, h⟩ := Option.bind_eq_some_iff.1 h
      obtain ⟨c', hc, h⟩ := Option.bind_eq_some_iff.1 h
      obtain ⟨d', hd, h⟩ := Option.bind_eq_some_iff.1 h
      split at h
      next fits =>
        cases h
        obtain ⟨small, rfl⟩ := of_tail?_eq_some hb
        obtain ⟨small', rfl⟩ := of_tail?_eq_some hc
        obtain ⟨small'', rfl⟩ := of_tail?_eq_some hd
        have lower : 0xF0 ≤ a.toNat := Nat.le_of_not_lt least
        have upper : a.toNat < 0xF5 := four
        rw [utf8EncodeChar_four (by omega) small small' small'' fits.1 fits.2,
          Nat.sub_add_cancel lower, UInt8.ofNat_toNat]
        rfl
      next => cases h
    next => cases h
  next => cases h

theorem exists_of_readable {bytes : List UInt8} (h : (ofBytes bytes).all (·.isSome) = true) :
    ∃ cs : List Char, bytes = cs.flatMap String.utf8EncodeChar := by
  fun_induction ofBytes bytes with
  | case1 => exact ⟨[], rfl⟩
  | case2 a r x n read ih =>
    rw [List.all_cons, Bool.and_eq_true] at h
    obtain ⟨cs, rest⟩ := ih h.2
    refine ⟨x :: cs, ?_⟩
    rw [List.flatMap_cons, ← rest]
    exact eq_utf8EncodeChar read
  | case3 a r read ih => cases h

theorem toUTF8_eq (text : String) :
    text.toUTF8.data.toList = text.toList.flatMap String.utf8EncodeChar := by
  have bytes : (String.ofList text.toList).toUTF8 = text.toList.utf8Encode :=
    String.toByteArray_ofList
  rw [String.ofList_toList] at bytes
  rw [bytes]
  exact List.toList_data_toByteArray

theorem ofBytes_toUTF8 (text : String) : ofBytes text.toUTF8.data.toList = ofString text := by
  rw [toUTF8_eq, ofBytes_utf8Encode]
  rfl

theorem readable_iff {bytes : List UInt8} : (ofBytes bytes).all (·.isSome) = true ↔
    ∃ text : String, bytes = text.toUTF8.data.toList := by
  constructor
  · intro readable
    obtain ⟨cs, rfl⟩ := exists_of_readable readable
    refine ⟨String.ofList cs, ?_⟩
    rw [toUTF8_eq, String.toList_ofList]
  · rintro ⟨text, rfl⟩
    rw [ofBytes_toUTF8, ofString, List.all_map]
    exact List.all_eq_true.2 fun _ _ => rfl

end Glyph

def bytes (j : Json) : List UInt8 := j.write.toUTF8.data.toList

theorem bytes_eq (j : Json) : j.bytes = (chars j).flatMap String.utf8EncodeChar :=
  List.toList_data_toByteArray

/-- What is sent is read again, if its leaves are exact and it does not nest too deep. -/
theorem readBytes_bytes {j : Json} (h : All Exact j) (deep : j.depth ≤ nestingLimit) :
    readBytes j.bytes = some j := by
  rw [readBytes, bytes_eq, Glyph.ofBytes_utf8Encode, readGlyphs_chars h deep]

end Tenancy.Json
