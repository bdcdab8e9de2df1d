import Tenancy.Proofs.Control.Passes
import Tenancy.Proofs.Deployment.Concern

/-! A cluster that keeps to its moves, and whose feeds never overflow. When nothing is under way any
more, no deployment shows a stale state: it shows what the logic works out now, if its last pass
has come to a verdict. -/

namespace Tenancy

theorem Deployment.leads_apply (d : Deployment) (organizations : List Organization) :
    ∃ w, Program.Leads d.apply [⟨.organizations, .ok organizations⟩]
      (.done (d.setObserved (d.verdict organizations), w)) :=
  ⟨_, d.leads_ruling organizations⟩

def Loop.running {S : Type} (l : Loop S) : Bool :=
  match l.state with
  | .running => true
  | _ => false

theorem Loop.state_of_running {S : Type} {l : Loop S} (h : l.running = true) :
    l.state = .running := by
  unfold running at h
  split at h
  · assumption
  · cases h

namespace Cluster

structure KeepsUp (s t : Cluster) : Prop where
  own : ∀ l, s.deps.loop = some l → t.store DeploymentSpec ≠ s.store DeploymentSpec →
    l.own.backlog.length < Feed.capacity
  related : ∀ l, s.deps.loop = some l → t.store OrganizationSpec ≠ s.store OrganizationSpec →
    ∀ f, l.related = some f → f.backlog.length < Feed.capacity

/-- Any moves in any order, and how the last pass over each deployment has ended. -/
inductive Run : Cluster → (Key → Option Outcome) → Prop
  | start (settings clock base) : Run (start settings clock base) fun _ => none
  | move {s t last m} (run : Run s last) (made : s.move? m = some t) (keepsUp : s.KeepsUp t) :
    Run t (Desk.record last (s.finished m))

variable {s : Cluster} {last : Key → Option Outcome}

theorem Run.sound (run : Run s last) : s.Calm ∧ s.view.Sound last := by
  induction run with
  | start => exact ⟨⟨rfl, rfl⟩, Scene.sound_of_none Store.keyed_empty Store.keyed_empty⟩
  | move _ made keepsUp ih =>
    obtain ⟨calm, step⟩ := ih.1.move made
    exact ⟨calm, ih.2.step step ⟨keepsUp.own, keepsUp.related⟩⟩

/-- The loop of deployments runs, no change is under way to its queue, and no pass over the key is
asked for or made. -/
def atRest (s : Cluster) (k : Key) : Bool :=
  s.deps.loop.any fun l =>
    l.running && l.own.backlog.isEmpty && l.related.all (·.backlog.isEmpty) &&
      l.arrived.isEmpty && l.concerned.isEmpty && !l.lobby.queue.dirty.contains k &&
      !l.lobby.queue.processing.contains k

/-- At rest no deployment is stale: if its last pass has come to a verdict, it shows what the logic
works out from it and the organizations as they are now. -/
theorem no_stale_deployment (run : Run s last) {k : Key} (rest : s.atRest k = true)
    {d : Deployment} (stored : (s.store DeploymentSpec).get? k = some d)
    (live : d.wasDeleted = false) {r : Outcome} (latest : last k = some r)
    (verdict : r.Conclusive) :
    ∃ x w, Program.Leads d.apply [⟨.organizations, .ok (s.store OrganizationSpec).list⟩]
        (.done (x, w)) ∧
      (d.status.observed == x.status.observed) = true := by
  unfold atRest at rest
  simp only [Option.any_eq_true, Bool.and_eq_true] at rest
  obtain ⟨l, present, ⟨⟨⟨⟨⟨running, own⟩, related⟩, arrived⟩, concerned⟩, clean⟩,
    idle⟩ := rest
  have running : l.state = .running := by
    unfold Loop.running at running
    split at running
    · assumption
    · cases running
  obtain ⟨plugged, tidy, attended⟩ := run.sound.2.running l present running
  have taken : (l.desk s.view.deps s.view.orgs).related = [] := by
    obtain ⟨f, hf, -⟩ := plugged.related
    rw [hf, Option.all_some, List.isEmpty_iff] at related
    rw [Loop.desk, hf]
    exact related
  have absent {ks : Std.ExtTreeSet Key} (h : (!ks.contains k) = true) : k ∉ ks := by
    intro hk
    rw [Std.ExtTreeSet.mem_iff_contains.1 hk] at h
    cases h
  have fulfilled := (attended k).at_rest tidy (List.isEmpty_iff.1 own) taken
    (List.isEmpty_iff.1 arrived) (List.isEmpty_iff.1 concerned) (absent clean) (absent idle)
    latest verdict
  obtain ⟨w, leads⟩ := d.leads_apply (s.store OrganizationSpec).list
  exact ⟨_, w, leads, fulfilled d stored live⟩

/-! ### A rehearsal -/

def hasRoom (s : Cluster) : Bool :=
  s.deps.loop.all fun l =>
    l.own.backlog.length < Feed.capacity && l.related.all (·.backlog.length < Feed.capacity)

theorem keepsUp_of_hasRoom {t : Cluster} (room : s.hasRoom = true) : s.KeepsUp t := by
  unfold hasRoom at room
  refine ⟨fun l present _ => ?_, fun l present _ f hf => ?_⟩
  · rw [present, Option.all_some, Bool.and_eq_true] at room
    exact of_decide_eq_true room.1
  · rw [present, Option.all_some, hf, Bool.and_eq_true] at room
    exact of_decide_eq_true room.2

def rehearse : List Move → Cluster × (Key → Option Outcome) →
    Option (Cluster × (Key → Option Outcome))
  | [], p => some p
  | m :: ms, (s, last) =>
    if s.hasRoom then
      (s.move? m).bind fun t => rehearse ms (t, Desk.record last (s.finished m))
    else none

theorem Run.rehearse {ms : List Move} {p q : Cluster × (Key → Option Outcome)}
    (run : Run p.1 p.2) (made : rehearse ms p = some q) : Run q.1 q.2 := by
  induction ms generalizing p with
  | nil =>
    cases made
    exact run
  | cons m ms ih =>
    unfold Cluster.rehearse at made
    split at made
    · rename_i room
      obtain ⟨t, made, rest⟩ := Option.bind_eq_some_iff.1 made
      exact ih (run.move made (keepsUp_of_hasRoom room)) rest
    · cases made

def orphaning : List Move :=
  let work (id : Nat) : Move := .task (.work .deployment id)
  [.organization (.create (.new "" "a")), .deployment (.create (.new "" "a.b")),
    .setUp .deployment, .task (.launch .deployment)] ++
  List.replicate 8 (work 0) ++
  [.task (.takeOwn .deployment), .task (.takeOwn .deployment), .task .takeRelated,
    .organization (.delete ⟨"", "a"⟩), .task .takeRelated, .task .takeRelated] ++
  List.replicate 6 (work 1) ++
  [.task (.takeOwn .deployment)]

theorem no_stale_deployment_orphaned :
    ∃ (s : Cluster) (last : Key → Option Outcome) (d x : Deployment)
      (w : Except ReconcileError Unit),
      Run s last ∧ s.atRest ⟨"", "a.b"⟩ = true ∧
      (s.store DeploymentSpec).get? ⟨"", "a.b"⟩ = some d ∧ d.wasDeleted = false ∧
      (d.status.observed == some (.down Deployment.noOrganization)) = true ∧
      last ⟨"", "a.b"⟩ = some (.error (.organizationNotFound "a")) ∧
      Program.Leads d.apply [⟨.organizations, .ok (s.store OrganizationSpec).list⟩]
        (.done (x, w)) ∧
      (d.status.observed == x.status.observed) = true := by
  -- the whole run is one closed term
  have played : (rehearse orphaning (start .default .epoch ⟨0⟩, fun _ => none)).any (fun p =>
      p.1.atRest ⟨"", "a.b"⟩ &&
      ((p.1.store DeploymentSpec).get? ⟨"", "a.b"⟩).any (fun d =>
        !d.wasDeleted && d.status.observed == some (.down Deployment.noOrganization)) &&
      decide (p.2 ⟨"", "a.b"⟩ = some (.error (.organizationNotFound "a")))) = true := by
    decide +kernel
  obtain ⟨⟨s, last⟩, made, known⟩ := (Option.any_eq_true _ _).1 played
  simp only [Bool.and_eq_true, decide_eq_true_eq] at known
  obtain ⟨⟨rest, found⟩, latest⟩ := known
  obtain ⟨d, stored, looks⟩ := (Option.any_eq_true _ _).1 found
  simp only [Bool.and_eq_true, Bool.not_eq_true'] at looks
  obtain ⟨live, down⟩ := looks
  have run : Run s last := (Run.start .default .epoch ⟨0⟩).rehearse made
  obtain ⟨x, w, leads, shown⟩ := no_stale_deployment run rest stored live latest trivial
  exact ⟨s, last, d, x, w, run, rest, stored, live, down, latest, leads, shown⟩

end Cluster
end Tenancy
