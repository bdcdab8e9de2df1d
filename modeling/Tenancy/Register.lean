import Std.Data.ExtTreeMap
import Tenancy.Json.Record

/-!
Registers. A register binds a kind of shared identifier, such as an address pool, to the name of the
instance to use. In a list of bindings the first one of a kind counts; a child inherits the bindings
of its parent for the kinds that it does not bind itself.
-/

namespace Tenancy

inductive RegisterKind where
  | ipam
  | as
  | networkInstance
  | vlan
  | endpointGroup
deriving DecidableEq, Repr

namespace RegisterKind

def all : List RegisterKind := [ipam, as, networkInstance, vlan, endpointGroup]

/-- The kinds without which a set of registers is not served. -/
def critical : List RegisterKind := [ipam, as]

def text : RegisterKind → String
  | ipam => "ipam"
  | as => "as"
  | networkInstance => "network-instance"
  | vlan => "vlan"
  | endpointGroup => "endpoint-group"

def title : RegisterKind → String
  | ipam => "Ipam"
  | as => "As"
  | networkInstance => "NetworkInstance"
  | vlan => "Vlan"
  | endpointGroup => "EndpointGroup"

def parse? (s : String) : Option RegisterKind := all.find? (·.text == s)

def unknownMessage (s : String) : String := s!"unknown register kind: {s}"

end RegisterKind

structure Register where
  kind : String
  name : String
deriving DecidableEq, Repr, Inhabited

abbrev Registers := Std.ExtTreeMap String String

namespace Registers

def ofList (bindings : List Register) : Registers :=
  bindings.foldl (fun rs r => rs.insertIfNew r.kind r.name) ∅

def bindings (rs : Registers) : List Register := rs.toList.map fun p => ⟨p.1, p.2⟩

def inherit (parent own : Registers) : Registers := parent ∪ own

theorem getElem?_inherit (parent own : Registers) (kind : String) :
    (inherit parent own)[kind]? = own[kind]?.or parent[kind]? :=
  Std.ExtTreeMap.getElem?_union

end Registers

/-! ### JSON -/

namespace Register

def encode (r : Register) : Json := .obj [("kind", .str r.kind), ("name", .str r.name)]

def decode? (j : Json) : Option Register := do
  let fs ← j.record? ["kind", "name"]
  return ⟨← fs.required? "kind" Json.string?, ← fs.required? "name" Json.string?⟩

end Register

def Registers.encode (rs : Registers) : Json := .obj (rs.toList.map fun p => (p.1, .str p.2))

/-- The last name that is given for a kind counts. -/
def Registers.decode? (j : Json) : Option Registers := do
  return (← j.members? Json.string?).foldl (fun rs p => rs.insert p.1 p.2) ∅

end Tenancy
