import Tenancy.Reconcile.Logic

/-!
The logic of organizations: what is effective is what is declared.
-/

namespace Tenancy.Organization

def apply (o : Organization) : Inquiry (Hooked OrganizationSpec) :=
  return (o.setObserved (.up o.registers o.strategy), .ok ())

def logic : Logic OrganizationSpec := .paced apply

end Tenancy.Organization
