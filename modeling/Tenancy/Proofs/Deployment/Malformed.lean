import Tenancy.Proofs.Deployment.Effective
import Tenancy.Proofs.Segments

/-! Deployments whose name does not have exactly two segments. Such a name stands for no
organization, which is written as one with an empty name; so they belong to an organization whose
name is empty, if one is stored, and to no other. -/

namespace Tenancy.Deployment

variable {d : Deployment}

theorem organizationName_malformed (malformed : d.metadata.name.toList.count '.' ≠ 1) :
    d.organizationName = "" :=
  congrArg Prod.fst (splitDeploymentName_malformed malformed)

/-- As long as every stored organization has a name, the logic finds no organization for a malformed
deployment and takes it down; as soon as one has none, the deployment inherits from it. The changes
that concern it are those of organizations without a name. -/
theorem orphaned_of_malformed (malformed : d.metadata.name.toList.count '.' ≠ 1) :
    (∀ s : Store OrganizationSpec, (∀ k o, s.get? k = some o → Organization.title o ≠ "") →
      ∃ x, Program.Leads d.apply [⟨.organizations, .ok s.list⟩]
          (.done (x, .error (.organizationNotFound ""))) ∧
        x.status.observed = some ⟨"down", "organization not found", [], none⟩) ∧
    (∀ (s : Store OrganizationSpec) (k : Key) (o : Organization),
      s.get? k = some o → Organization.title o = "" →
      ∃ x p, Program.Leads d.apply [⟨.organizations, .ok s.list⟩] (.done (x, .ok ())) ∧
        s.First (Organization.title · = "") p ∧ x.status.observed = some (d.effective p)) ∧
    ∀ (ds : List Deployment) (c : Change OrganizationSpec), d ∈ ds →
      (d.key ∈ Fanout.keys ds c ↔ ∃ o ∈ c.objects, Organization.title o = "") := by
  have name := organizationName_malformed malformed
  refine ⟨fun s named => ?_, fun s k o stored nameless => ?_, fun ds c listed => ?_⟩
  · have leads := d.leads_ruling s.list
    have nobody : d.parent? s.list = none := parent?_eq_none.2 (name ▸ named)
    simp only [ruling, verdict, nobody, name] at leads
    exact ⟨_, leads, rfl⟩
  · have leads := d.leads_ruling s.list
    cases found : d.parent? s.list with
    | none => exact absurd (nameless.trans name.symm) (parent?_eq_none.1 found k o stored)
    | some p =>
      simp only [ruling, verdict, found] at leads
      have parent : d.Parent s p := parent?_eq_some.1 found
      exact ⟨_, p, leads, by rwa [Parent, name] at parent, rfl⟩
  · rw [Fanout.mem_keys]
    constructor
    · rintro ⟨o, version, e, -, named, key⟩
      -- the deployment that is listed under this key has the same name
      have same : e.organizationName = d.organizationName :=
        congrArg (fun k : Key => k.organization) key
      exact ⟨o, version, by rw [← named, same, name]⟩
    · rintro ⟨o, version, nameless⟩
      exact ⟨o, version, d, listed, name.trans nameless.symm, rfl⟩

def undotted : Deployment := .new "x" "web"

def oneOrganization (title : String) : Store OrganizationSpec :=
  (History.after [.create ⟨1⟩ { Resource.new (S := OrganizationSpec) "x" title with
    spec := ⟨none, [⟨"ipam", "pool"⟩], none⟩ }]).store

theorem orphaned_of_malformed_undotted :
    undotted.metadata.name.toList.count '.' ≠ 1 ∧
      (∀ k o, (oneOrganization "web").get? k = some o → Organization.title o ≠ "") ∧
      ∃ x, Program.Leads undotted.apply [⟨.organizations, .ok (oneOrganization "web").list⟩]
          (.done (x, .error (.organizationNotFound ""))) ∧
        x.status.observed = some ⟨"down", "organization not found", [], none⟩ := by
  have malformed : undotted.metadata.name.toList.count '.' ≠ 1 := by decide
  have named : ∀ k o, (oneOrganization "web").get? k = some o → Organization.title o ≠ "" := by
    intro k o stored
    have listed : o ∈ (oneOrganization "web").list :=
      List.mem_map.2 ⟨(k, o), Store.mem_entries.2 stored, rfl⟩
    have titles : ((oneOrganization "web").list.all (Organization.title · != "")) = true := by
      decide +kernel
    simpa using List.all_eq_true.1 titles o listed
  exact ⟨malformed, named, (orphaned_of_malformed malformed).1 _ named⟩

theorem malformed_inherits :
    undotted.metadata.name.toList.count '.' ≠ 1 ∧
      (∃ x, Program.Leads undotted.apply [⟨.organizations, .ok (oneOrganization "").list⟩]
          (.done (x, .ok ())) ∧
        x.status.observed = some ⟨"up", "", [⟨"ipam", "pool"⟩], none⟩) ∧
      undotted.key ∈ Fanout.keys [undotted] (.created (.new "x" "")) :=
  ⟨by decide, ⟨_, undotted.leads_ruling _, rfl⟩, by decide +kernel⟩

end Tenancy.Deployment
