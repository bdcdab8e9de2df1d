import Tenancy.Deployment
import Tenancy.Organization
import Tenancy.Reconcile.Error

/-!
Looking up registers by name. A register name has one segment, for an organization, or two, for one
of its deployments. The effective registers are served only if no critical kind is missing.
-/

namespace Tenancy.Registry

inductive Target where
  | organization (key : Key)
  | deployment (key : Key)
deriving DecidableEq, Repr

def registerName (organization deployment : String) : String :=
  if deployment = "" then organization else s!"{organization}.{deployment}"

def target (ns name : String) : Except ReconcileError Target :=
  match (segments name).length with
  | 1 => .ok (.organization ⟨ns, name⟩)
  | 2 => .ok (.deployment ⟨ns, name⟩)
  | _ => .error (.invalidRegisterName name)

def serve (rs : Registers) : Except ReconcileError Registers :=
  match RegisterKind.critical.find? fun k => !rs.contains k.text with
  | some k => .error (.missingRegister k.text)
  | none => .ok rs

end Tenancy.Registry
