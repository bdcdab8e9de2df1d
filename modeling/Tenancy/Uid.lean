/-!
Unique identifiers of 128 bits. They are written as 32 lower-case hexadecimal digits in groups of 8,
4, 4, 4 and 12; they are read in any case, with or without the hyphens, in braces or as a URN.
-/

namespace Tenancy

structure Uid where
  bits : BitVec 128
deriving DecidableEq, Repr, Inhabited

namespace Uid

/-- The first of the identifiers that begin with a time in milliseconds and then, apart from the
marks of this form, with a number below 2 ^ 42. -/
def ofTime (millis salt : Nat) : Uid :=
  ⟨BitVec.ofNat 128
    (((millis % (1 <<< 48) * 16 + 7) * (1 <<< 12) + salt / (1 <<< 30) % (1 <<< 12)) * (1 <<< 64)
      + (1 <<< 63) + salt % (1 <<< 30) * (1 <<< 32))⟩

def digit? (c : Char) : Option Nat :=
  if '0' ≤ c ∧ c ≤ '9' then some (c.toNat - '0'.toNat)
  else if 'a' ≤ c ∧ c ≤ 'f' then some (c.toNat - 'a'.toNat + 10)
  else if 'A' ≤ c ∧ c ≤ 'F' then some (c.toNat - 'A'.toNat + 10)
  else none

def digits : Nat → Nat → List Char
  | 0, _ => []
  | n + 1, v => digits n (v / 16) ++ [Nat.digitChar (v % 16)]

def chars (u : Uid) : List Char :=
  let cs := digits 32 u.bits.toNat
  cs.take 8 ++ '-' :: (cs.drop 8).take 4 ++ '-' :: (cs.drop 12).take 4 ++ '-' :: (cs.drop 16).take 4
    ++ '-' :: cs.drop 20

def text (u : Uid) : String := String.ofList u.chars

def value? (cs : List Char) : Option Uid :=
  if cs.length = 32 then
    (cs.mapM digit?).map fun ds => ⟨BitVec.ofNat 128 (ds.foldl (fun n d => n * 16 + d) 0)⟩
  else none

def grouped? (cs : List Char) : Option (List Char) :=
  let hyphenAt (i : Nat) : Bool := cs[i]? == some '-'
  if cs.length = 36 && hyphenAt 8 && hyphenAt 13 && hyphenAt 18 && hyphenAt 23 then
    some (cs.take 8 ++ (cs.drop 9).take 4 ++ (cs.drop 14).take 4 ++ (cs.drop 19).take 4
      ++ cs.drop 24)
  else none

def urnMark : List Char := ['u', 'r', 'n', ':', 'u', 'u', 'i', 'd', ':']

def parse? (s : String) : Option Uid :=
  let cs := s.toList
  if cs.length = 32 then value? cs
  else if cs.head? = some '\x7b' ∧ cs.getLast? = some '\x7d' then
    (grouped? cs.tail.dropLast).bind value?
  else if (cs.take urnMark.length).map Char.toLower = urnMark then
    (grouped? (cs.drop urnMark.length)).bind value?
  else (grouped? cs).bind value?

end Uid
end Tenancy
