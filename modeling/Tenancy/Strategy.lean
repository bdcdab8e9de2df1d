import Tenancy.Json.Canonical

/-!
Address allocation strategies: values that are passed on without being looked into. A strategy is
kept in canonical form, so that the order in which members are written does not matter.
-/

namespace Tenancy

structure Strategy where
  value : Json
  canonical : value.canonical = value

namespace Strategy

def ofJson (j : Json) : Strategy := ⟨j.canonical, j.canonical_canonical⟩

instance : BEq Strategy := ⟨fun s t => s.value == t.value⟩

instance : Inhabited Strategy := ⟨ofJson .null⟩

instance : Repr Strategy := ⟨fun s n => reprPrec s.value n⟩

/-- `null`, an empty object and an empty array declare nothing. -/
def isEmpty (s : Strategy) : Bool :=
  match s.value with
  | .null => true
  | .arr xs => xs.isEmpty
  | .obj ms => ms.isEmpty
  | _ => false

def inherit (parent own : Option Strategy) : Option Strategy :=
  match own with
  | some s => if s.isEmpty then parent else some s
  | none => parent

def encode (s : Strategy) : Json := s.value

def decode? (j : Json) : Option Strategy := if j.sound then some (ofJson j) else none

end Strategy
end Tenancy
