import Tenancy.Resource

/-!
Organizations, the parent scope. An organization declares registers and a strategy, which its
deployments inherit.
-/

namespace Tenancy

structure OrganizationSpec where
  description : Option String
  registers : List Register
  strategy : Option Strategy
deriving BEq, Inhabited

namespace OrganizationSpec

def encode (s : OrganizationSpec) : Json :=
  .ofMembers [
    Json.unlessNone "description" .str s.description,
    Json.unlessEmpty "register" Register.encode s.registers,
    Json.unlessNone "addressAllocationStrategy" Strategy.encode s.strategy]

def decode? (j : Json) : Option OrganizationSpec := do
  let fs ← j.record? ["description", "register", "addressAllocationStrategy"]
  let description ← fs.optional? "description" Json.string?
  let registers ← fs.withDefault? "register" [] (Json.list? Register.decode?)
  let strategy ← fs.optional? "addressAllocationStrategy" Strategy.decode?
  return ⟨description, registers, strategy⟩

instance : ResourceKind OrganizationSpec where
  title := "Organization"
  finalizer := "organization.org.nddr.yndd.io"
  slot := "organization"
  blank := ⟨none, [], none⟩
  registers := registers
  strategy := strategy
  encode := encode
  decode? _ := decode?

end OrganizationSpec

abbrev Organization := Resource OrganizationSpec

def Organization.description (o : Organization) : String := o.spec.description.getD ""

def Organization.title (o : Organization) : String := o.metadata.name

end Tenancy
