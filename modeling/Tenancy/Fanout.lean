import Tenancy.Change
import Tenancy.Deployment
import Tenancy.Organization

/-!
Fan-out. A change to an organization concerns the deployments that are named after any version of
it.
-/

namespace Tenancy.Fanout

def children (deployments : List Deployment) (o : Organization) : List Key :=
  (deployments.filter fun d => d.organizationName == o.title).map (·.key)

def merge (keys more : List Key) : List Key :=
  more.foldl (fun ks k => if ks.contains k then ks else ks ++ [k]) keys

def keys (deployments : List Deployment) (c : Change OrganizationSpec) : List Key :=
  c.objects.foldl (fun ks o => merge ks (children deployments o)) []

end Tenancy.Fanout
