import Tenancy.Proofs.Deployment.Concern
import Tenancy.Proofs.Registers

/-! The effective state of deployments: what the logic leaves of a deployment, for every content of
the store of organizations and whatever was observed before. -/

namespace Tenancy

namespace Strategy

variable {s : Strategy} {parent own : Option Strategy}

def Void (s : Strategy) : Prop := s.value = .null ∨ s.value = .obj [] ∨ s.value = .arr []

theorem isEmpty_iff : s.isEmpty = true ↔ s.Void := by
  unfold isEmpty Void
  cases s.value <;> simp

theorem inherit_of_declared (h : own = some s) (declared : s.isEmpty = false) :
    inherit parent own = some s := by
  simp [inherit, h, declared]

theorem inherit_of_undeclared (h : ∀ s, own = some s → s.isEmpty = true) :
    inherit parent own = parent := by
  cases own with
  | none => rfl
  | some s => simp [inherit, h s rfl]

end Strategy

namespace Deployment

variable {s : Store OrganizationSpec} {d : Deployment} {p : Organization}

abbrev Parent (s : Store OrganizationSpec) (d : Deployment) (p : Organization) : Prop :=
  s.First (Organization.title · = d.organizationName) p

theorem parent?_eq_some : d.parent? s.list = some p ↔ d.Parent s p := by
  simp only [parent?, Store.find?_list, beq_iff_eq, Parent]

theorem parent?_eq_none : d.parent? s.list = none ↔
    ∀ k o, s.get? k = some o → Organization.title o ≠ d.organizationName := by
  simp only [parent?, Store.find?_list_eq_none, beq_eq_false_iff_ne]

/-- The observed state `o` is that of an enabled deployment below its parent. -/
structure Inherits (d : Deployment) (p : Organization) (o : Observed) : Prop where
  status : o.status = "up"
  reason : o.reason = ""
  ordered : o.registers.Pairwise (·.kind < ·.kind)
  registers (r : Register) : r ∈ o.registers ↔
    (Register.first? d.spec.registers r.kind).or (Register.first? p.spec.registers r.kind) =
      some r.name
  own (st : Strategy) : d.spec.strategy = some st → ¬st.Void → o.strategy = some st
  inherited : (∀ st, d.spec.strategy = some st → st.Void) → o.strategy = p.spec.strategy

inductive Ruled (s : Store OrganizationSpec) (d : Deployment) :
    Except ReconcileError Unit → Option Observed → Prop
  | orphaned (nobody : ∀ k o, s.get? k = some o → Organization.title o ≠ d.organizationName) :
    Ruled s d (.error (.organizationNotFound d.organizationName))
      (some ⟨"down", "organization not found", [], none⟩)
  | disabled {p : Organization} (parent : d.Parent s p) (state : d.spec.adminState = .disable) :
    Ruled s d (.ok ()) (some ⟨"down", "admin state disabled", [], none⟩)
  | enabled {p : Organization} {o : Observed} (parent : d.Parent s p)
    (state : d.spec.adminState = .enable) (inherits : d.Inherits p o) : Ruled s d (.ok ()) (some o)

theorem inherits_effective (enabled : d.spec.adminState = .enable) :
    d.Inherits p (d.effective p) := by
  have up : d.effective p =
      .up (p.registers.inherit d.registers) (Strategy.inherit p.strategy d.strategy) := by
    simp [effective, enabled]
  rw [up]
  exact {
    status := rfl
    reason := rfl
    ordered := Registers.ordered_bindings _
    registers := fun r => Registers.mem_bindings_inherit
    own := fun _ declared given => Strategy.inherit_of_declared declared
      (Bool.eq_false_iff.2 fun void => given (Strategy.isEmpty_iff.1 void))
    inherited := fun void => Strategy.inherit_of_undeclared
      fun st declared => Strategy.isEmpty_iff.2 (void st declared) }

theorem ruled (s : Store OrganizationSpec) (d : Deployment) :
    d.Ruled s (d.ruling s.list) (some (d.verdict s.list)) := by
  unfold ruling verdict
  cases found : d.parent? s.list with
  | none => exact .orphaned (parent?_eq_none.1 found)
  | some p =>
    have parent : d.Parent s p := parent?_eq_some.1 found
    show d.Ruled s (.ok ()) (some (d.effective p))
    cases state : d.spec.adminState with
    | disable =>
      have down : d.effective p = .down adminDisabled := if_pos state
      rw [down]
      exact .disabled parent state
    | enable => exact .enabled parent state (inherits_effective state)

/-- With any organizations stored, the logic asks for nothing but their list and ends with the
effective state of the deployment. That replaces whatever was observed before, and all else stays as
it was. -/
theorem effective_state (s : Store OrganizationSpec) (d : Deployment) :
    ∃ x r, Program.Leads d.apply [⟨.organizations, .ok s.list⟩] (.done (x, r)) ∧
      d.Ruled s r x.status.observed ∧ x.typeMeta = d.typeMeta ∧ x.metadata = d.metadata ∧
      x.spec = d.spec ∧ x.status.conditions = d.status.conditions :=
  ⟨_, _, d.leads_ruling s.list, d.ruled s, rfl, rfl, rfl, rfl⟩

end Deployment
end Tenancy
