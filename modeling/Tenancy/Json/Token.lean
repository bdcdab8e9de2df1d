import Tenancy.Json.Number

/-!
Tokens of JSON text: brackets, marks, words, numbers, and strings with the text they stand for.
Stray bytes may stand only inside a string, whose text is then lost.
-/

namespace Tenancy.Json

inductive Token where
  | openArray
  | closeArray
  | openObject
  | closeObject
  | comma
  | colon
  | text (s : Option String)
  | scalar (j : Json)

namespace Token

def isBlank (c : Char) : Bool := c == ' ' || c == '\t' || c == '\n' || c == '\r'

def hexDigit? (c : Char) : Option Nat :=
  if '0' ≤ c ∧ c ≤ '9' then some (c.toNat - '0'.toNat)
  else if 'a' ≤ c ∧ c ≤ 'f' then some (c.toNat - 'a'.toNat + 10)
  else if 'A' ≤ c ∧ c ≤ 'F' then some (c.toNat - 'A'.toNat + 10)
  else none

def unit? (a b c d : Glyph) : Option Nat := do
  let a ← a.bind hexDigit?
  let b ← b.bind hexDigit?
  let c ← c.bind hexDigit?
  let d ← d.bind hexDigit?
  return ((a * 16 + b) * 16 + c) * 16 + d

def escape? : Char → Option Char
  | '\"' => some '\"'
  | '\\' => some '\\'
  | '/' => some '/'
  | 'b' => some '\x08'
  | 'f' => some '\x0c'
  | 'n' => some '\n'
  | 'r' => some '\r'
  | 't' => some '\t'
  | _ => none

def paired (high low : Nat) : Char :=
  Char.ofNat (0x10000 + (high - 0xD800) * 0x400 + (low - 0xDC00))

def isHigh (u : Nat) : Bool := decide (0xD800 ≤ u) && decide (u < 0xDC00)

def isLow (u : Nat) : Bool := decide (0xDC00 ≤ u) && decide (u < 0xE000)

/-- A part of a string: a character, the number of a `u` escape, or stray bytes. -/
inductive Piece where
  | char (c : Char)
  | unit (n : Nat)
  | stray

def scanString : List Glyph → Option (List Piece × List Glyph)
  | [] => none
  | none :: r => (scanString r).map fun (ps, r) => (.stray :: ps, r)
  | some '\"' :: r => some ([], r)
  | some '\\' :: some 'u' :: a :: b :: c :: d :: r => do
    let n ← unit? a b c d
    (scanString r).map fun (ps, r) => (.unit n :: ps, r)
  | some '\\' :: some c :: r => do
    let c ← escape? c
    (scanString r).map fun (ps, r) => (.char c :: ps, r)
  | some c :: r =>
    if c = '\\' ∨ c < ' ' then none else (scanString r).map fun (ps, r) => (.char c :: ps, r)

/-- The text of the pieces: surrogates come in pairs, and stray bytes have no text. -/
def assemble : List Piece → Option (List Char)
  | [] => some []
  | .char c :: ps => (assemble ps).map (c :: ·)
  | .stray :: _ => none
  | .unit n :: ps =>
    if isLow n then none
    else if isHigh n then
      match ps with
      | .unit m :: ps => if isLow m then (assemble ps).map (paired n m :: ·) else none
      | _ => none
    else (assemble ps).map (Char.ofNat n :: ·)

def scanWord : List Char → List Glyph → Option (List Glyph)
  | [], g => some g
  | c :: cs, some d :: g => if c = d then scanWord cs g else none
  | _ :: _, _ => none

def mark? : Char → Option Token
  | '[' => some .openArray
  | ']' => some .closeArray
  | '\x7b' => some .openObject
  | '\x7d' => some .closeObject
  | ',' => some .comma
  | ':' => some .colon
  | _ => none

def word? : Char → Option (List Char × Json)
  | 'n' => some (['u', 'l', 'l'], .null)
  | 't' => some (['r', 'u', 'e'], .bool true)
  | 'f' => some (['a', 'l', 's', 'e'], .bool false)
  | _ => none

def scan (c : Char) (g : List Glyph) : Option (Token × List Glyph) :=
  if c = '\"' then
    (scanString g).map fun (ps, g) => (.text ((assemble ps).map String.ofList), g)
  else
    match mark? c, word? c with
    | some t, _ => some (t, g)
    | none, some (cs, j) => (scanWord cs g).map (.scalar j, ·)
    | none, none => (Numeral.scan (some c :: g)).map fun (n, g) => (.scalar n.value, g)

/-- Each step of `fuel` reads one glyph or one token. -/
def tokens : Nat → List Glyph → Option (List Token)
  | _, [] => some []
  | 0, _ => none
  | _, none :: _ => none
  | fuel + 1, some c :: g =>
    if isBlank c then tokens fuel g
    else do
      let (t, g) ← scan c g
      return t :: (← tokens fuel g)

end Token

def lex (g : List Glyph) : Option (List Token) := Token.tokens g.length g

end Tenancy.Json
