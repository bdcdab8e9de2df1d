import Tenancy.Json.Token

/-!
Reading JSON. A text is one value with blanks around it; arrays and objects nest at most 127 deep,
and one that lies deeper is `unfit`, as is an object with a name that has no text.
-/

namespace Tenancy.Json

namespace Token

mutual

/-- Reads a value inside of which `room` more brackets may open. -/
def value : Nat → Nat → List Token → Option (Json × List Token)
  | 0, _, _ => none
  | _ + 1, _, .text s :: ts => some (s.elim .unfit .str, ts)
  | _ + 1, _, .scalar j :: ts => some (j, ts)
  | _ + 1, room, .openArray :: .closeArray :: ts => some (fitting room (.arr []), ts)
  | _ + 1, room, .openObject :: .closeObject :: ts => some (fitting room (.obj []), ts)
  | fuel + 1, room, .openArray :: ts =>
    (items fuel (room - 1) ts).map fun (js, ts) => (fitting room (.arr js), ts)
  | fuel + 1, room, .openObject :: ts =>
    (members fuel (room - 1) ts).map fun (ms, ts) => (fitting room (ms.elim .unfit .obj), ts)
  | _, _, _ => none
where
  fitting (room : Nat) (j : Json) : Json := if room = 0 then .unfit else j

def items : Nat → Nat → List Token → Option (List Json × List Token)
  | 0, _, _ => none
  | fuel + 1, room, ts =>
    match value fuel room ts with
    | some (j, .closeArray :: ts) => some ([j], ts)
    | some (j, .comma :: ts) => (items fuel room ts).map fun (js, ts) => (j :: js, ts)
    | _ => none

/-- The members up to the closing brace; nothing in their place if a name has no text. -/
def members : Nat → Nat → List Token → Option (Option (List (String × Json)) × List Token)
  | fuel + 1, room, .text s :: .colon :: ts =>
    match value fuel room ts with
    | some (j, .closeObject :: ts) => some (s.map fun s => [(s, j)], ts)
    | some (j, .comma :: ts) =>
      (members fuel room ts).map fun (ms, ts) => (do some ((← s, j) :: (← ms)), ts)
    | _ => none
  | _, _, _ => none

end

end Token

def nestingLimit : Nat := 127

def readGlyphs (g : List Glyph) : Option Json := do
  let ts ← lex g
  match Token.value (2 * ts.length + 1) nestingLimit ts with
  | some (j, []) => some j
  | _ => none

def read (s : String) : Option Json := readGlyphs (Glyph.ofString s)

def readBytes (bs : List UInt8) : Option Json := readGlyphs (Glyph.ofBytes bs)

end Tenancy.Json
