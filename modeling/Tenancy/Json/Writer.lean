import Tenancy.Double.Shortest
import Tenancy.Json

/-!
Writing JSON on one line, without blanks.
-/

namespace Tenancy.Json

def hexDigit (n : Nat) : Char := if n < 10 then Char.ofNat (48 + n) else Char.ofNat (87 + n)

def escaped (c : Char) : List Char :=
  if c = '\"' then ['\\', '\"']
  else if c = '\\' then ['\\', '\\']
  else if c = '\n' then ['\\', 'n']
  else if c = '\r' then ['\\', 'r']
  else if c = '\t' then ['\\', 't']
  else if c = '\x08' then ['\\', 'b']
  else if c = '\x0c' then ['\\', 'f']
  else if c < ' ' then ['\\', 'u', '0', '0', hexDigit (c.toNat / 16), hexDigit (c.toNat % 16)]
  else [c]

def quoted (s : String) : List Char := '\"' :: s.toList.flatMap escaped ++ ['\"']

mutual

def chars : Json → List Char
  | null | unfit => ['n', 'u', 'l', 'l']
  | bool true => ['t', 'r', 'u', 'e']
  | bool false => ['f', 'a', 'l', 's', 'e']
  | int n => (toString n).toList
  | double x => x.text.toList
  | str s => quoted s
  | arr xs => '[' :: charsItems xs ++ [']']
  | obj ms => '\x7b' :: charsMembers ms ++ ['\x7d']

def charsItems : List Json → List Char
  | [] => []
  | [x] => chars x
  | x :: y :: xs => chars x ++ ',' :: charsItems (y :: xs)

def charsMembers : List (String × Json) → List Char
  | [] => []
  | [(k, x)] => quoted k ++ ':' :: chars x
  | (k, x) :: m :: ms => quoted k ++ ':' :: chars x ++ ',' :: charsMembers (m :: ms)

end

def write (j : Json) : String := String.ofList (chars j)

end Tenancy.Json
