import Tenancy.Deployment
import Tenancy.Reconcile.Logic

/-!
The logic of deployments. A deployment is up if its organization exists and it is not disabled; then
it inherits what it does not declare itself.
-/

namespace Tenancy.Deployment

def noOrganization : String := "organization not found"

def adminDisabled : String := "admin state disabled"

def parent? (d : Deployment) (organizations : List Organization) : Option Organization :=
  organizations.find? (·.title == d.organizationName)

def effective (d : Deployment) (parent : Organization) : Observed :=
  if d.spec.adminState = .disable then .down adminDisabled
  else .up (parent.registers.inherit d.registers) (Strategy.inherit parent.strategy d.strategy)

def apply (d : Deployment) : Inquiry (Hooked DeploymentSpec) := do
  match ← Program.question Ask.organizations with
  | .error e => return (d, .error (.ofStore e))
  | .ok organizations =>
    match d.parent? organizations with
    | none =>
      return (d.setObserved (.down noOrganization),
        .error (.organizationNotFound d.organizationName))
    | some parent => return (d.setObserved (d.effective parent), .ok ())

def logic : Logic DeploymentSpec := .paced apply

end Tenancy.Deployment
