import Tenancy.Control.Lookup
import Tenancy.Proofs.Control.Moves
import Tenancy.Proofs.Fanout
import Tenancy.Proofs.Store.Listing
import Tenancy.Proofs.Store.Versions

/-! Fan-out over what is stored. Whatever deployments there are, a change of an organization comes
to the keys of those that are named after a version of it, each of them once: by namespace and name,
and those of the old version before those of the new one alone. -/

namespace Tenancy

namespace Fanout

variable {s : Store DeploymentSpec}

/-- A deployment with this key is stored, and it is named after the organization. -/
def Concerns (s : Store DeploymentSpec) (o : Organization) (k : Key) : Prop :=
  ∃ d : Deployment, s.get? k = some d ∧ d.organizationName = Organization.title o

theorem mem_children_list (keyed : s.Keyed) {o : Organization} {k : Key} :
    k ∈ children s.list o ↔ Concerns s o k := by
  rw [mem_children]
  constructor
  · rintro ⟨d, listed, named, rfl⟩
    exact ⟨d, (Store.mem_list keyed).1 listed, named⟩
  · rintro ⟨d, stored, named⟩
    have key : d.key = k := keyed k d stored
    exact ⟨d, (Store.mem_list keyed).2 (key.symm ▸ stored), named, key⟩

theorem ordered_children (keyed : s.Keyed) (o : Organization) :
    (children s.list o).Pairwise fun k l => compare k l = .lt :=
  List.pairwise_map.2 ((Store.ordered_list keyed).filter _)

theorem nodup_of_ordered {ks : List Key} (h : ks.Pairwise fun k l => compare k l = .lt) :
    ks.Nodup :=
  h.imp fun below same => by
    subst same
    simp at below

end Fanout

namespace Cluster

variable {s : Cluster}

open Fanout

theorem list_of_plan {S : Type} [Hosted S] (plan : (Hosted.side (S := S) s).store.plan = []) :
    (s.list S).1 = .ok (s.store S).list :=
  congrArg (·.answer) (plain_call plan s.clock .list none fun st => ⟨.ok st.list, st, none⟩)

theorem answer_fanout (plan : s.deps.store.plan = []) (c : Change OrganizationSpec) :
    (s.fanout c).1 = .ok (keys (s.store DeploymentSpec).list c) := by
  have listed := list_of_plan (S := DeploymentSpec) plan
  unfold fanout
  generalize s.list DeploymentSpec = r at listed ⊢
  obtain ⟨answer, t⟩ := r
  subst listed
  rfl

/-- If the deployments can be listed, the answer is a list without duplicates, of the keys of the
deployments that are named after some version of the organization, and of no others. It begins with
those of the first version; of the latest version those follow that are not there yet. -/
theorem fanout_exact (plan : s.deps.store.plan = []) (keyed : (s.store DeploymentSpec).Keyed)
    (c : Change OrganizationSpec) :
    ∃ first later, (s.fanout c).1 = .ok (first ++ later) ∧ (first ++ later).Nodup ∧
      (∀ k, k ∈ first ++ later ↔ ∃ o ∈ c.objects, Concerns (s.store DeploymentSpec) o k) ∧
      (first.Pairwise fun k l => compare k l = .lt) ∧
      (later.Pairwise fun k l => compare k l = .lt) ∧
      (∀ k, k ∈ first ↔ Concerns (s.store DeploymentSpec) c.earliest k) ∧
      ∀ k, k ∈ later ↔ Concerns (s.store DeploymentSpec) c.latest k ∧ k ∉ first := by
  have ordered := ordered_children keyed
  have nodup (o : Organization) := nodup_of_ordered (ordered o)
  have parts := keys_eq nodup c
  refine ⟨_, _, parts ▸ answer_fanout plan c, ?nodup, ?mem, ordered _, (ordered _).filter _, ?first,
    ?later⟩
  case nodup =>
    refine List.nodup_append.2 ⟨nodup _, (nodup _).filter _, fun k hk l hl same => ?_⟩
    have new := (List.mem_filter.1 hl).2
    rw [← same, List.contains_iff_mem.2 hk] at new
    cases new
  case mem =>
    intro k
    rw [← parts, mem_keys]
    simp only [← mem_children, mem_children_list keyed]
  case first => exact fun k => mem_children_list keyed
  case later =>
    intro k
    rw [List.mem_filter, mem_children_list keyed, Bool.not_eq_true', ← Bool.not_eq_true,
      List.contains_iff_mem]

def tenants : List (Write DeploymentSpec) :=
  [.create ⟨1⟩ (.new "x" "globex.web"), .create ⟨2⟩ (.new "y" "acme.edge"),
    .create ⟨3⟩ (.new "x" "acme.db"), .create ⟨4⟩ (.new "x" "acme")]

def hosting : Cluster :=
  let s := start .default .epoch ⟨0⟩
  { s with deps := { s.deps with store := ⟨(History.after tenants).store, []⟩ } }

def rebranding : Change OrganizationSpec := .updated (.new "z" "globex") (.new "z" "acme")

theorem fanout_exact_rebranded :
    ∃ first later, (hosting.fanout rebranding).1 = .ok (first ++ later) ∧
      (first ++ later).Nodup ∧ ⟨"x", "globex.web"⟩ ∈ first ∧ ⟨"y", "acme.edge"⟩ ∈ later ∧
      ⟨"x", "acme"⟩ ∉ first ++ later := by
  have keyed : (hosting.store DeploymentSpec).Keyed := History.keyed_after tenants
  obtain ⟨first, later, answer, nodup, mem, -, -, old, new⟩ := fanout_exact rfl keyed rebranding
  refine ⟨first, later, answer, nodup, (old _).2 ⟨_, rfl, by decide⟩,
    (new _).2 ⟨⟨_, rfl, by decide⟩, fun h => ?_⟩, fun h => ?_⟩
  · obtain ⟨d, stored, named⟩ := (old _).1 h
    cases stored
    exact absurd named (by decide)
  · obtain ⟨o, version, d, stored, named⟩ := (mem _).1 h
    cases stored
    rcases List.mem_pair.1 version with rfl | rfl <;> exact absurd named (by decide)

end Cluster
end Tenancy
