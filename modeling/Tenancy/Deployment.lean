import Tenancy.Resource
import Tenancy.Segments

/-!
Deployments. A deployment is named after its organization and itself, and nothing but the name links
the two.
-/

namespace Tenancy

inductive AdminState where
  | enable
  | disable
deriving DecidableEq, Repr, Inhabited

namespace AdminState

def text : AdminState → String
  | enable => "enable"
  | disable => "disable"

def parse? (s : String) : Option AdminState := [enable, disable].find? (·.text == s)

end AdminState

inductive DeploymentKind where
  | dc
  | wan
deriving DecidableEq, Repr, Inhabited

namespace DeploymentKind

def text : DeploymentKind → String
  | dc => "dc"
  | wan => "wan"

def parse? (s : String) : Option DeploymentKind := [dc, wan].find? (·.text == s)

end DeploymentKind

structure DeploymentSpec where
  adminState : AdminState
  description : Option String
  region : Option String
  kind : Option DeploymentKind
  registers : List Register
  strategy : Option Strategy
deriving BEq, Inhabited

namespace DeploymentSpec

def fieldNames : List String :=
  ["adminState", "description", "region", "kind", "register", "addressAllocationStrategy"]

def encode (s : DeploymentSpec) : Json :=
  .ofMembers [
    some ("adminState", .str s.adminState.text),
    Json.unlessNone "description" .str s.description,
    Json.unlessNone "region" .str s.region,
    Json.unlessNone "kind" (fun k => .str k.text) s.kind,
    Json.unlessEmpty "register" Register.encode s.registers,
    Json.unlessNone "addressAllocationStrategy" Strategy.encode s.strategy]

def decode? (held : Bool) (j : Json) : Option DeploymentSpec := do
  let fs ← j.record? fieldNames
  let adminState ← fs.withDefault? "adminState" .enable fun j =>
    (j.variant? held).bind AdminState.parse?
  let description ← fs.optional? "description" Json.string?
  let region ← fs.optional? "region" Json.string?
  let kind ← fs.optional? "kind" fun j => (j.variant? held).bind DeploymentKind.parse?
  let registers ← fs.withDefault? "register" [] (Json.list? Register.decode?)
  let strategy ← fs.optional? "addressAllocationStrategy" Strategy.decode?
  return ⟨adminState, description, region, kind, registers, strategy⟩

instance : ResourceKind DeploymentSpec where
  title := "Deployment"
  finalizer := "deployment.org.nddr.yndd.io"
  slot := "deployment"
  blank := ⟨.enable, none, none, none, [], none⟩
  registers := registers
  strategy := strategy
  encode := encode
  decode? := decode?

end DeploymentSpec

abbrev Deployment := Resource DeploymentSpec

namespace Deployment

def organizationName (d : Deployment) : String := (splitDeploymentName d.metadata.name).1

def deploymentName (d : Deployment) : String := (splitDeploymentName d.metadata.name).2

def description (d : Deployment) : String := d.spec.description.getD ""

def region (d : Deployment) : String := d.spec.region.getD ""

def kindText (d : Deployment) : String := (d.spec.kind.map (·.text)).getD ""

end Deployment
end Tenancy
