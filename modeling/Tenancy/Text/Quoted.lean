import Tenancy.Text.Concealed

/-!
Text in double quotes with nothing left unseen: a quote, a backslash and the common control
characters follow a backslash, and any other concealed character is written by its number.
-/

namespace Tenancy.Text

def numbered (c : Char) : List Char :=
  '\\' :: 'u' :: '\x7b' :: Nat.toDigits 16 c.toNat ++ ['\x7d']

def revealed (c : Char) : List Char :=
  if c = '\x00' then ['\\', '0']
  else if c = '\t' then ['\\', 't']
  else if c = '\n' then ['\\', 'n']
  else if c = '\r' then ['\\', 'r']
  else if c = '\"' then ['\\', '\"']
  else if c = '\\' then ['\\', '\\']
  else if isConcealed c then numbered c
  else [c]

def quoted (s : String) : String :=
  String.ofList ('\"' :: s.toList.flatMap revealed ++ ['\"'])

end Tenancy.Text
