import Tenancy.Json.Reader
import Tenancy.Json.Writer
import Tenancy.Proofs.Json.Shape
import Tenancy.Proofs.Text.Places

/-! The text of a value falls into its tokens: strings come out of their escapes, and whole numbers
of 64 bits out of their digits. -/

namespace Tenancy.Json

open Token
open Text (places foldl_places lt_of_mem_places places_eq_cons toDigits_eq_places)

def Exact : Json → Prop
  | int n => -(1 <<< 63) ≤ n ∧ n < 1 <<< 64
  | double _ | unfit => False
  | _ => True

def glyphs (cs : List Char) : List Glyph := cs.map some

namespace Token

theorem scanString_plain {c : Char} (quote : c ≠ '\"') (slash : c ≠ '\\') (low : ¬c < ' ')
    (g : List Glyph) :
    scanString (some c :: g) = (scanString g).map fun (ps, r) => (.char c :: ps, r) := by
  rw [scanString, if_neg (not_or.2 ⟨slash, low⟩)]
  · exact quote
  · exact fun _ _ _ _ _ _ => slash
  · exact fun _ _ _ => slash

theorem scanString_escape {c d : Char} (h : escape? c = some d) (g : List Glyph) :
    scanString (some '\\' :: some c :: g) =
      (scanString g).map fun (ps, r) => (.char d :: ps, r) := by
  rw [scanString, h]
  · rfl
  · intro _ _ _ _ _ _ unit
    rw [unit] at h
    cases h

theorem scanString_unit {a b c d : Glyph} {n : Nat} (h : unit? a b c d = some n) (g : List Glyph) :
    scanString (some '\\' :: some 'u' :: a :: b :: c :: d :: g) =
      (scanString g).map fun (ps, r) => (.unit n :: ps, r) := by
  rw [scanString, h]
  rfl

theorem unit?_hexDigit {n : Nat} (h : n < 32) :
    unit? (some '0') (some '0') (some (hexDigit (n / 16))) (some (hexDigit (n % 16))) = some n := by
  revert n
  decide

theorem assemble_unit {n : Nat} (h : n < 32) (ps : List Piece) :
    assemble (.unit n :: ps) = (assemble ps).map (Char.ofNat n :: ·) := by
  have low : isLow n = false := by
    revert n
    decide
  have high : isHigh n = false := by
    revert n
    decide
  rw [assemble.eq_def]
  dsimp only
  rw [low, high, if_neg Bool.false_ne_true, if_neg Bool.false_ne_true]

theorem piece_of_escaped (c : Char) : ∃ p : Piece,
    (∀ g, scanString (glyphs (escaped c) ++ g) = (scanString g).map fun (ps, r) => (p :: ps, r)) ∧
      ∀ ps, assemble (p :: ps) = (assemble ps).map (c :: ·) := by
  have escape (d : Char) (h : escape? d = some c) : ∃ p : Piece,
      (∀ g, scanString (some '\\' :: some d :: g) =
        (scanString g).map fun (ps, r) => (p :: ps, r)) ∧
      ∀ ps, assemble (p :: ps) = (assemble ps).map (c :: ·) :=
    ⟨.char c, scanString_escape h, fun _ => rfl⟩
  unfold escaped
  split
  next is => exact escape '\"' (by rw [is]; rfl)
  next quote =>
  split
  next is => exact escape '\\' (by rw [is]; rfl)
  next slash =>
  split
  next is => exact escape 'n' (by rw [is]; rfl)
  split
  next is => exact escape 'r' (by rw [is]; rfl)
  split
  next is => exact escape 't' (by rw [is]; rfl)
  split
  next is => exact escape 'b' (by rw [is]; rfl)
  split
  next is => exact escape 'f' (by rw [is]; rfl)
  split
  next low =>
    have small : c.toNat < 32 := low
    refine ⟨.unit c.toNat, scanString_unit (unit?_hexDigit small), fun ps => ?_⟩
    rw [assemble_unit small, Char.ofNat_toNat]
  next low => exact ⟨.char c, scanString_plain quote slash low, fun _ => rfl⟩

theorem scanString_escaped (cs : List Char) (rest : List Glyph) :
    ∃ ps, scanString (glyphs (cs.flatMap escaped) ++ some '\"' :: rest) = some (ps, rest) ∧
      assemble ps = some cs := by
  induction cs with
  | nil =>
    refine ⟨[], ?_, rfl⟩
    rw [List.flatMap_nil, glyphs, List.map_nil, List.nil_append, scanString]
  | cons c cs ih =>
    obtain ⟨ps, scanned, text⟩ := ih
    obtain ⟨p, piece, stands⟩ := piece_of_escaped c
    refine ⟨p :: ps, ?_, by rw [stands, text, Option.map_some]⟩
    rw [List.flatMap_cons, glyphs, List.map_append, List.append_assoc]
    refine (piece _).trans ?_
    rw [← glyphs, scanned, Option.map_some]

end Token

/-! ### Numbers -/

def Delimited (g : List Glyph) : Prop :=
  ∀ c ∈ g.head?, c = some ',' ∨ c = some ']' ∨ c = some '\x7d'

namespace Numeral

variable {rest : List Glyph} {n : Nat}

theorem digit?_digitChar {d : Nat} (h : d < 10) : digit? (Nat.digitChar d) = some d := by
  revert d
  decide

theorem scanDigits_of_digits {ds : List Nat} (digits : ∀ d ∈ ds, d < 10) (rest : List Glyph)
    (delimited : Delimited rest) :
    scanDigits (glyphs (ds.map Nat.digitChar) ++ rest) = (ds, rest) := by
  induction ds with
  | nil =>
    show scanDigits rest = ([], rest)
    cases rest with
    | nil => rfl
    | cons c g => rcases delimited c rfl with rfl | rfl | rfl <;> rfl
  | cons d ds ih =>
    have more := ih fun e he => digits e (List.mem_cons_of_mem _ he)
    show scanDigits (some (Nat.digitChar d) :: (glyphs (ds.map Nat.digitChar) ++ rest)) = _
    rw [scanDigits, digit?_digitChar (digits d (List.mem_cons_self ..))]
    dsimp only
    rw [more]

theorem le_foldl (m : Nat) (ds : List Nat) : m ≤ ds.foldl (fun n d => n * 10 + d) m := by
  induction ds generalizing m with
  | nil => exact Nat.le_refl m
  | cons d ds ih => exact Nat.le_trans (by omega) (ih (m * 10 + d))

theorem absorb_of_lt {ds : List Nat} {m : Nat}
    (h : ds.foldl (fun n d => n * 10 + d) m < UInt64.size) :
    absorb m ds = (ds.foldl (fun n d => n * 10 + d) m, 0) := by
  induction ds generalizing m with
  | nil => rfl
  | cons d ds ih =>
    have fits : m * 10 + d < UInt64.size := Nat.lt_of_le_of_lt (le_foldl (m * 10 + d) ds) h
    rw [absorb, if_pos fits, ih h, List.foldl_cons]

theorem whole_of_toDigits (n : Nat) : ∃ ds : List Nat,
    Nat.toDigits 10 n = ds.map Nat.digitChar ∧ (∀ d ∈ ds, d < 10) ∧
    (∀ rest, Delimited rest →
      scanWhole (glyphs (ds.map Nat.digitChar) ++ rest) = some (ds, rest)) ∧
    (n < UInt64.size → absorb 0 ds = (n, 0)) := by
  obtain ⟨w, digits, less, least⟩ := toDigits_eq_places n
  have small : ∀ d ∈ places 10 (w + 1) n, d < 10 := fun d hd => lt_of_mem_places (by decide) hd
  have value := foldl_places 0 less
  rw [zero_mul, zero_add] at value
  refine ⟨_, digits, small, fun rest delimited => ?_, fun fits => ?_⟩
  · rw [scanWhole, scanDigits_of_digits small rest delimited, places_eq_cons]
    split
    next heq => cases heq
    next heq =>
      obtain ⟨first, more⟩ := List.cons.inj (Prod.mk.inj heq).1
      rcases least with rfl | least
      · cases more
      · have pos : 0 < n / 10 ^ w := Nat.div_pos least (Nat.pow_pos (by decide))
        have top : n / 10 ^ w < 10 := Nat.div_lt_of_lt_mul (by rwa [pow_succ] at less)
        omega
    next => rfl
  · rw [absorb_of_lt (by rwa [value]), value]

theorem scanFraction_of_delimited (h : Delimited rest) : scanFraction rest = some ([], rest) := by
  cases rest with
  | nil => rfl
  | cons c g => rcases h c rfl with rfl | rfl | rfl <;> rfl

theorem scanExponent_of_delimited (h : Delimited rest) : scanExponent rest = some (none, rest) := by
  cases rest with
  | nil => rfl
  | cons c g => rcases h c rfl with rfl | rfl | rfl <;> rfl

theorem scan_of_whole {ds : List Nat} {g : List Glyph} (h : scanWhole g = some (ds, rest))
    (delimited : Delimited rest) :
    scan (some '-' :: g) = some (⟨true, ds, [], none⟩, rest) ∧
      (g.head? ≠ some (some '-') → scan g = some (⟨false, ds, [], none⟩, rest)) := by
  have fraction := scanFraction_of_delimited delimited
  have exponent := scanExponent_of_delimited delimited
  constructor
  · simp only [scan, h, fraction, exponent, Option.bind_eq_bind, Option.bind_some]
    rfl
  · intro unsigned
    unfold scan
    split
    next heq =>
      split at heq
      next => exact (unsigned rfl).elim
      next =>
        cases heq
        simp only [h, fraction, exponent, Option.bind_eq_bind, Option.bind_some]
        rfl

theorem value_of_absorb {ds : List Nat} (h : absorb 0 ds = (n, 0)) :
    value ⟨false, ds, [], none⟩ = .int n ∧
      (n ≠ 0 → n ≤ 1 <<< 63 → value ⟨true, ds, [], none⟩ = .int (-n)) := by
  refine ⟨?_, fun ne le => ?_⟩
  · unfold value
    rw [h]
    rfl
  · unfold value
    rw [h]
    exact (if_pos (And.intro ne le) :)

end Numeral

theorem scan_int {n : Int} (least : -(1 <<< 63) ≤ n) (most : n < 1 <<< 64) : ∃ c cs,
    (toString n).toList = c :: cs ∧ (c = '-' ∨ ∃ d < 10, c = Nat.digitChar d) ∧
      ∀ rest, Delimited rest → (Numeral.scan (some c :: (glyphs cs ++ rest))).map
        (fun (x : Numeral × List Glyph) => (x.1.value, x.2)) = some (.int n, rest) := by
  cases n with
  | ofNat n =>
    obtain ⟨ds, digits, small, whole, absorbed⟩ := Numeral.whole_of_toDigits n
    have text : (toString (n : Int)).toList = ds.map Nat.digitChar := by
      rw [← digits]
      exact Nat.toList_repr
    cases ds with
    | nil => exact (Nat.toDigits_ne_nil digits).elim
    | cons d ds =>
      have hd := small d (List.mem_cons_self ..)
      refine ⟨_, _, text, .inr ⟨d, hd, rfl⟩, fun rest delimited => ?_⟩
      have unsigned : Nat.digitChar d ≠ '-' := by
        clear * - hd
        revert d
        decide
      have scanned := (Numeral.scan_of_whole (whole rest delimited) delimited).2 fun h =>
        unsigned (Option.some.inj (Option.some.inj h))
      have fits : n < UInt64.size := Int.ofNat_lt.1 most
      refine (congrArg (Option.map _) scanned).trans ?_
      rw [Option.map_some, (Numeral.value_of_absorb (absorbed fits)).1]
      rfl
  | negSucc n =>
    obtain ⟨ds, digits, -, whole, absorbed⟩ := Numeral.whole_of_toDigits (n + 1)
    have text : (toString (Int.negSucc n)).toList = '-' :: ds.map Nat.digitChar := by
      rw [← digits]
      show ("-" ++ Nat.repr (n + 1)).toList = _
      rw [String.toList_append, Nat.toList_repr]
      rfl
    refine ⟨_, _, text, .inl rfl, fun rest delimited => ?_⟩
    have scanned := (Numeral.scan_of_whole (whole rest delimited) delimited).1
    have fits : n + 1 ≤ 1 <<< 63 := by omega
    have fits' : n + 1 < UInt64.size := Nat.lt_of_le_of_lt fits (by decide)
    refine (congrArg (Option.map _) scanned).trans ?_
    rw [Option.map_some, (Numeral.value_of_absorb (absorbed fits')).2 (by omega) fits]
    rfl

/-! ### Tokens -/

mutual

def printed : Json → List Token
  | str s => [.text (some s)]
  | arr xs => .openArray :: (printedItems xs ++ [.closeArray])
  | obj ms => .openObject :: (printedMembers ms ++ [.closeObject])
  | j => [.scalar j]

def printedItems : List Json → List Token
  | [] => []
  | [x] => printed x
  | x :: y :: xs => printed x ++ .comma :: printedItems (y :: xs)

def printedMembers : List (String × Json) → List Token
  | [] => []
  | [(k, x)] => .text (some k) :: .colon :: printed x
  | (k, x) :: m :: ms =>
    .text (some k) :: .colon :: (printed x ++ .comma :: printedMembers (m :: ms))

end

def Lexes (g : List Glyph) (ts : List Token) : Prop :=
  ∀ fuel, g.length ≤ fuel → Token.tokens fuel g = some ts

namespace Lexes

variable {g rest : List Glyph} {ts : List Token}

theorem nil : Lexes [] [] := fun fuel _ => by
  cases fuel <;> rfl

theorem cons {c : Char} {t : Token} (blank : isBlank c = false)
    (scanned : Token.scan c g = some (t, rest)) (le : rest.length ≤ g.length)
    (h : Lexes rest ts) : Lexes (some c :: g) (t :: ts) := by
  intro fuel enough
  cases fuel with
  | zero => cases enough
  | succ fuel =>
    have more := h fuel (Nat.le_trans le (Nat.le_of_succ_le_succ enough))
    rw [tokens, if_neg (by rw [blank]; exact Bool.false_ne_true), scanned]
    simp only [Option.bind_eq_bind, Option.bind_some, more]
    rfl

theorem mark {c : Char} {t : Token} (is : mark? c = some t) (blank : isBlank c = false)
    (quote : c ≠ '\"') (h : Lexes g ts) : Lexes (some c :: g) (t :: ts) := by
  refine cons blank ?_ (Nat.le_refl _) h
  rw [Token.scan, if_neg quote, is]

theorem word {c : Char} {cs : List Char} {j : Json} (is : word? c = some (cs, j))
    (none : mark? c = none) (blank : isBlank c = false) (quote : c ≠ '\"') (h : Lexes g ts) :
    Lexes (some c :: (glyphs cs ++ g)) (.scalar j :: ts) := by
  have rest : scanWord cs (glyphs cs ++ g) = some g := by
    clear is
    induction cs with
    | nil => cases g <;> rfl
    | cons c cs ih => exact (if_pos rfl).trans ih
  refine cons blank ?_ (by simp) h
  rw [Token.scan, if_neg quote, none, is]
  dsimp only
  rw [rest, Option.map_some]

theorem quoted (s : String) (h : Lexes g ts) :
    Lexes (glyphs (Json.quoted s) ++ g) (.text (some s) :: ts) := by
  obtain ⟨ps, scanned, text⟩ := scanString_escaped s.toList g
  have start : glyphs (Json.quoted s) ++ g =
      some '\"' :: (glyphs (s.toList.flatMap escaped) ++ some '\"' :: g) := by
    simp [Json.quoted, glyphs]
  rw [start]
  refine cons rfl ?_ (by simp; omega) h
  rw [Token.scan, if_pos rfl, scanned, Option.map_some]
  simp only [text, Option.map_some, String.ofList_toList]

theorem int {n : Int} (exact_ : Exact (.int n)) (delimited : Delimited g) (h : Lexes g ts) :
    Lexes (glyphs (toString n).toList ++ g) (.scalar (.int n) :: ts) := by
  obtain ⟨c, cs, text, first, scanned⟩ := scan_int exact_.1 exact_.2
  have plain : isBlank c = false ∧ c ≠ '\"' ∧ mark? c = none ∧ word? c = none := by
    rcases first with rfl | ⟨d, hd, rfl⟩
    · decide
    · clear * - hd
      revert d
      decide
  obtain ⟨blank, quote, none, none'⟩ := plain
  rw [text]
  refine cons blank ?_ (by simp) h
  rw [Token.scan, if_neg quote, none, none']
  have scanned := scanned g delimited
  show (Numeral.scan (some c :: (glyphs cs ++ g))).map _ = _
  generalize Numeral.scan _ = x at scanned ⊢
  cases x with
  | none => cases scanned
  | some x =>
    obtain ⟨value, rest⟩ := Prod.mk.inj (Option.some.inj scanned)
    simp only [Option.map_some, value, rest]

end Lexes

def Prints (j : Json) : Prop :=
  ∀ rest ts, Delimited rest → Lexes rest ts → Lexes (glyphs (chars j) ++ rest) (printed j ++ ts)

theorem delimited_cons {c : Char} (h : c = ',' ∨ c = ']' ∨ c = '\x7d') (g : List Glyph) :
    Delimited (some c :: g) := by
  intro x hx
  cases hx
  simpa using h

theorem prints_items {xs : List Json} (h : ∀ x ∈ xs, Prints x) {rest : List Glyph}
    {ts : List Token} (delimited : Delimited rest) (more : Lexes rest ts) :
    Lexes (glyphs (charsItems xs) ++ rest) (printedItems xs ++ ts) := by
  induction xs with
  | nil => exact more
  | cons x xs ih =>
    obtain ⟨hx, hxs⟩ := List.forall_mem_cons.1 h
    cases xs with
    | nil => exact hx rest ts delimited more
    | cons y xs =>
      have next := (ih hxs).mark (c := ',') rfl rfl (by decide)
      have first := hx _ _ (delimited_cons (.inl rfl) _) next
      simpa only [charsItems, printedItems, glyphs, List.map_append, List.map_cons,
        List.append_assoc, List.cons_append] using first

theorem prints_members {ms : List (String × Json)} (h : ∀ m ∈ ms, Prints m.2) {rest : List Glyph}
    {ts : List Token} (delimited : Delimited rest) (more : Lexes rest ts) :
    Lexes (glyphs (charsMembers ms) ++ rest) (printedMembers ms ++ ts) := by
  induction ms with
  | nil => exact more
  | cons m ms ih =>
    obtain ⟨k, x⟩ := m
    obtain ⟨hx, hms⟩ := List.forall_mem_cons.1 h
    have named {g : List Glyph} {ts : List Token} (value : Lexes g ts) :
        Lexes (glyphs (quoted k) ++ some ':' :: g) (.text (some k) :: .colon :: ts) :=
      (value.mark (c := ':') rfl rfl (by decide)).quoted k
    cases ms with
    | nil =>
      have first := named (hx rest ts delimited more)
      simpa only [charsMembers, printedMembers, glyphs, List.map_append, List.map_cons,
        List.append_assoc, List.cons_append] using first
    | cons m ms =>
      have next := (ih hms).mark (c := ',') rfl rfl (by decide)
      have first := named (hx _ _ (delimited_cons (.inl rfl) _) next)
      simpa only [charsMembers, printedMembers, glyphs, List.map_append, List.map_cons,
        List.append_assoc, List.cons_append] using first

theorem prints_of_exact {j : Json} (h : All Exact j) : Prints j := by
  intro rest ts delimited more
  induction j using parts_induction generalizing rest ts with
  | null => exact more.word (c := 'n') rfl rfl rfl (by decide)
  | bool b =>
    cases b with
    | true => exact more.word (c := 't') rfl rfl rfl (by decide)
    | false => exact more.word (c := 'f') rfl rfl rfl (by decide)
  | int n => exact more.int h delimited
  | double x => cases h
  | unfit => cases h
  | str s => exact more.quoted s
  | arr xs ih =>
    have close := more.mark (c := ']') rfl rfl (by decide)
    have items := prints_items (fun x hx => ih x hx (all_arr.1 h x hx))
      (delimited_cons (.inr (.inl rfl)) _) close
    have all := items.mark (c := '[') rfl rfl (by decide)
    simpa only [chars, printed, glyphs, List.map_append, List.map_cons, List.map_nil,
      List.append_assoc, List.cons_append, List.nil_append] using all
  | obj ms ih =>
    have close := more.mark (c := '\x7d') rfl rfl (by decide)
    have members := prints_members (fun m hm => ih m hm (all_obj.1 h m hm))
      (delimited_cons (.inr (.inr rfl)) _) close
    have all := members.mark (c := '\x7b') rfl rfl (by decide)
    simpa only [chars, printed, glyphs, List.map_append, List.map_cons, List.map_nil,
      List.append_assoc, List.cons_append, List.nil_append] using all

end Tenancy.Json
