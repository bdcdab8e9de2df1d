import Tenancy.Json

/-!
Decoding of records, variants and lists. A record is an object, or an array of its fields in order;
no field may be given twice, unknown members are passed over, and an array has no more items than
the record has fields. A variant is its name, or an object that gives the name an absent payload.
-/

namespace Tenancy.Json

abbrev Fields := List (String × Json)

def hasDouble : List String → Bool
  | [] => false
  | n :: ns => ns.contains n || hasDouble ns

def fieldsOf? (names : List String) (ms : List (String × Json)) : Option Fields :=
  let known := ms.filter fun m => names.contains m.1
  if hasDouble (known.map (·.1)) then none else some known

def record? (names : List String) : Json → Option Fields
  | .obj ms => fieldsOf? names ms
  | .arr xs => if xs.length ≤ names.length then some (names.zip xs) else none
  | _ => none

/-- A record that takes in the fields of another one. It is an object, and all that is not decoded
in place is held back first, which only a sound value can be. -/
def openRecord? (inPlace held : List String) : Json → Option Fields
  | .obj ms =>
    if ms.all fun m => inPlace.contains m.1 || m.2.sound then fieldsOf? (inPlace ++ held) ms
    else none
  | _ => none

variable {α : Type}

def Fields.required? (fs : Fields) (name : String) (decode : Json → Option α) : Option α :=
  (fs.lookup name).bind decode

/-- A field that may be missing, but not `null`. -/
def Fields.withDefault? (fs : Fields) (name : String) (default : α) (decode : Json → Option α) :
    Option α :=
  match fs.lookup name with
  | none => some default
  | some j => decode j

/-- A field that may be missing or `null`. -/
def Fields.optional? (fs : Fields) (name : String) (decode : Json → Option α) :
    Option (Option α) :=
  match fs.lookup name with
  | none | some .null => some none
  | some j => (decode j).map some

def string? : Json → Option String
  | .str s => some s
  | _ => none

def word64? : Json → Option UInt64
  | .int n => if 0 ≤ n ∧ n.toNat < UInt64.size then some (UInt64.ofNat n.toNat) else none
  | _ => none

def bool? : Json → Option Bool
  | .bool b => some b
  | _ => none

def list? (decode : Json → Option α) : Json → Option (List α)
  | .arr xs => xs.mapM decode
  | _ => none

def members? (decode : Json → Option α) : Json → Option (List (String × α))
  | .obj ms => ms.mapM fun m => (decode m.2).map (m.1, ·)
  | _ => none

/-- The name of a variant. One that was held back and decoded later may also have an empty object
for its payload. -/
def variant? (held : Bool) : Json → Option String
  | .str s => some s
  | .obj [(s, .null)] => some s
  | .obj [(s, .obj [])] => if held then some s else none
  | _ => none

def ofMembers (ms : List (Option (String × Json))) : Json := .obj (ms.filterMap id)

def unlessNone (name : String) (encode : α → Json) (a : Option α) : Option (String × Json) :=
  a.map fun a => (name, encode a)

def unlessEmpty (name : String) (encode : α → Json) (as : List α) : Option (String × Json) :=
  if as.isEmpty then none else some (name, .arr (as.map encode))

end Tenancy.Json
