import Tenancy.Control.Cluster

/-!
Questions of clients about what was worked out: the effective registers and the strategy that a
register name stands for, and the deployments that a change of an organization concerns.
-/

namespace Tenancy.Cluster

/-- Fetches what a register name stands for, of either kind, and takes something out of it. -/
def lookUp {α : Type} (s : Cluster) (ns name : String)
    (read : {S : Type} → [ResourceKind S] → Resource S → Except ReconcileError α) :
    Except ReconcileError α × Cluster :=
  match Registry.target ns name with
  | .error e => (.error e, s)
  | .ok (.organization key) => fetch (s.get OrganizationSpec key)
  | .ok (.deployment key) => fetch (s.get DeploymentSpec key)
where
  fetch {S : Type} [ResourceKind S] (r : Except StoreError (Resource S) × Cluster) :
      Except ReconcileError α × Cluster :=
    match r with
    | (.ok o, s) => (read o, s)
    | (.error e, s) => (.error (.ofStore e), s)

def effectiveRegisters (s : Cluster) (ns name : String) :
    Except ReconcileError Registers × Cluster :=
  s.lookUp ns name fun o => Registry.serve o.stateRegisters

def effectiveStrategy (s : Cluster) (ns name : String) :
    Except ReconcileError (Option Strategy) × Cluster :=
  s.lookUp ns name fun o => .ok o.stateStrategy

def fanout (s : Cluster) (c : Change OrganizationSpec) :
    Except ReconcileError (List Key) × Cluster :=
  match s.list DeploymentSpec with
  | (.ok ds, s) => (.ok (Fanout.keys ds c), s)
  | (.error e, s) => (.error (.ofStore e), s)

end Tenancy.Cluster
