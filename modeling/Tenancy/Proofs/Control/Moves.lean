import Tenancy.Control.Lifecycle
import Tenancy.Proofs.Control.Scene

/-! The moves of a cluster that nobody disturbs, one at a time and in any order: calls of clients,
everything that goes on by itself, passes that are given up, loops that are set up and stopped, and
time. -/

namespace Tenancy

inductive Call (S : Type) where
  | create (o : Resource S)
  | delete (key : Key)
  | update (o : Resource S)
  | updateStatus (o : Resource S)

namespace Cluster

section

variable {S : Type} [Hosted S]

def serve (s : Cluster) : Call S → Cluster
  | .create o => (s.create o).2
  | .delete key => (s.delete S key).2
  | .update o => (s.update o).2
  | .updateStatus o => (s.updateStatus o).2

def written (s : Cluster) : Call S → Write S
  | .create o => .create s.uid o
  | .delete key => .delete s.clock key
  | .update o => .update o
  | .updateStatus o => .updateStatus o

end

def giveUp (s : Cluster) (S : Type) [Hosted S] (id : Nat) : Cluster :=
  match s.loop? S with
  | none => s
  | some l =>
    match l.workers[id]? with
    | some (.working key _ deadline) =>
      if deadline ≤ s.now then s.onLoop fun _ => l.setWorker id (.working key (expired l) deadline)
      else s
    | _ => s

inductive Move where
  | organization (c : Call OrganizationSpec)
  | deployment (c : Call DeploymentSpec)
  | task (t : Task)
  | giveUp (k : ObjectKind) (id : Nat)
  | setUp (k : ObjectKind)
  | halt (k : ObjectKind)
  | tick (now : Nat) (clock : Instant)

/-- Makes a move, if it can be made. Only what can go on goes on, there is one loop of each kind,
and clients leave the status of deployments alone. -/
def move? (s : Cluster) : Move → Option Cluster
  | .deployment (.updateStatus _) => none
  | .organization c => some (s.serve c)
  | .deployment c => some (s.serve c)
  | .task t => if t ∈ s.pending then some (s.step t) else none
  | .giveUp k id => some (k.on fun S => s.giveUp S id)
  | .setUp k =>
    if k.on fun S => (s.loop? S).isNone then
      match s.setUpOne false k with
      | .ok (_, t) => some t
      | .error _ => none
    else none
  | .halt k => some (k.on fun S => s.halt S)
  | .tick now clock => some { s with now, clock }

def finished (s : Cluster) : Move → Option (Key × Outcome)
  | .task (.work .deployment id) =>
    (s.deps.loop.bind (·.workers[id]?)).bind Worker.outcome?
  | _ => none

end Cluster

def Cluster.view (s : Cluster) : Scene := ⟨s.deps.store.store, s.orgs.store.store, s.deps.loop⟩

structure Cluster.Calm (s : Cluster) : Prop where
  deps : s.deps.store.plan = []
  orgs : s.orgs.store.plan = []

structure Cluster.Goes (s : Cluster) (f : Option (Key × Outcome)) (t : Cluster) : Prop where
  calm : t.Calm
  step : Scene.Step s.view f t.view

namespace Cluster

variable {s t : Cluster} {f : Option (Key × Outcome)}

theorem Calm.stays (h : s.Calm) : s.Goes none s := ⟨h, .rest⟩

/-! ### Calls -/

section

variable {S α : Type} [Hosted S]

/-- A call that no disturbance was planned for does what it says. -/
def Plain (s : Cluster) (run : Disturbed S → Called S α) (w : Written S α) : Prop :=
  run (Hosted.side s).store = ⟨w.answer, ⟨w.store, []⟩, w.change.toList⟩

theorem plain_call (calm : (Hosted.side (S := S) s).store.plan = []) (now : Instant) (m : Method)
    (key : Option Key) (run : Store S → Written S α) :
    s.Plain (·.call now m key run) (run (s.store S)) := by
  unfold Plain store
  generalize (Hosted.side (S := S) s).store = d at calm
  obtain ⟨d, plan⟩ := d
  cases calm
  rfl

theorem plain_write (calm : (Hosted.side (S := S) s).store.plan = [])
    (run : Store S → Written S α) :
    s.Plain (fun d =>
      let w := run d.store
      ⟨w.answer, { d with store := w.store }, w.change.toList⟩) (run (s.store S)) := by
  unfold Plain store
  dsimp only
  rw [calm]

structure Seen (S : Type) [Hosted S] (wrote : Scene → Store S → Option (Change S) → Scene) :
    Prop where
  plan : ∀ s : Cluster, s.Calm → (Hosted.side (S := S) s).store.plan = []
  quiet : ∀ s : Cluster, wrote s.view (s.store S) none = s.view
  announce : ∀ (s : Cluster) (store : Store S) (c : Option (Change S)), s.Calm →
    ((s.setStore ⟨store, []⟩).publishAll c.toList).Calm ∧
    ((s.setStore ⟨store, []⟩).publishAll c.toList).view = wrote s.view store c

variable {wrote : Scene → Store S → Option (Change S) → Scene}

theorem Seen.call (seen : Seen S wrote) (h : s.Calm) {run : Disturbed S → Called S α}
    {w : Written S α} (plain : s.Plain run w) :
    (s.call run).1 = w.answer ∧ (s.call run).2.Calm ∧
      (s.call run).2.view = wrote s.view w.store w.change := by
  unfold Cluster.call
  rw [plain]
  exact ⟨rfl, seen.announce s w.store w.change h⟩

theorem Seen.serve (seen : Seen S wrote) (h : s.Calm) (c : Call S) :
    (s.serve c).Calm ∧ (s.serve c).view = wrote s.view
      ((s.store S).write (s.written c)).store ((s.store S).write (s.written c)).change := by
  have plan := seen.plan s h
  cases c with
  | create o =>
    have created := (seen.call h (plain_write plan (·.create s.uid o))).2
    unfold Cluster.serve create Cluster.write
    dsimp only
    split
    · exact ⟨⟨created.1.deps, created.1.orgs⟩, created.2⟩
    · exact created
  | delete key => exact (seen.call h (plain_write plan (·.delete s.clock key))).2
  | update o => exact (seen.call h (plain_call plan s.clock .update (some o.key) (·.update o))).2
  | updateStatus o =>
    exact (seen.call h
      (plain_call plan s.clock .updateStatus (some o.key) (·.updateStatus o))).2

theorem Seen.get (seen : Seen S wrote) (h : s.Calm) (key : Key) :
    (s.get S key).1 = (s.store S).get key ∧ (s.get S key).2.Calm ∧
      (s.get S key).2.view = s.view := by
  have got := seen.call h (plain_call (seen.plan s h) s.clock .get (some key)
    fun st => ⟨st.get key, st, none⟩)
  rw [seen.quiet] at got
  exact got

theorem Seen.list (seen : Seen S wrote) (h : s.Calm) :
    (s.list S).1 = .ok (s.store S).list ∧ (s.list S).2.Calm ∧ (s.list S).2.view = s.view := by
  have got := seen.call h (plain_call (seen.plan s h) s.clock .list none
    fun st => ⟨.ok st.list, st, none⟩)
  rw [seen.quiet] at got
  exact got

end

theorem seen_deps : Seen DeploymentSpec fun v store c =>
    ⟨store, v.orgs, v.loop.map (·.hearOwn c)⟩ := by
  have same : (Loop.hearOwn · none) = (id : Loop DeploymentSpec → Loop DeploymentSpec) := rfl
  refine ⟨fun s h => h.deps, fun s => ?_, fun s store c h => ?_⟩
  · rw [same, Option.map_id]
    rfl
  · cases c with
    | none =>
      rw [same, Option.map_id]
      exact ⟨⟨rfl, h.orgs⟩, rfl⟩
    | some c => exact ⟨⟨rfl, h.orgs⟩, rfl⟩

theorem seen_orgs : Seen OrganizationSpec fun v store c =>
    ⟨v.deps, store, v.loop.map (·.hear c)⟩ := by
  have same : (Loop.hear · none) = (id : Loop DeploymentSpec → Loop DeploymentSpec) := by
    funext l
    simp [Loop.hear]
  refine ⟨fun s h => h.orgs, fun s => ?_, fun s store c h => ?_⟩
  · rw [same, Option.map_id]
    rfl
  · cases c with
    | none =>
      rw [same, Option.map_id]
      exact ⟨⟨h.deps, rfl⟩, rfl⟩
    | some c => exact ⟨⟨h.deps, rfl⟩, rfl⟩

theorem Calm.organization (h : s.Calm) (c : Call OrganizationSpec) : s.Goes none (s.serve c) := by
  obtain ⟨calm, view⟩ := seen_orgs.serve h c
  exact ⟨calm, view ▸ .organization _⟩

theorem Calm.deployment (h : s.Calm) (c : Call DeploymentSpec) (hc : ∀ o, c ≠ .updateStatus o) :
    s.Goes none (s.serve c) := by
  obtain ⟨calm, view⟩ := seen_deps.serve h c
  refine ⟨calm, view ▸ .client _ fun o ho => ?_⟩
  cases c with
  | updateStatus p => exact hc p rfl
  | create | delete | update => cases ho

/-! ### Organizations -/

theorem Goes.onLoop (h : s.Goes f t) (g : Loop OrganizationSpec → Loop OrganizationSpec) :
    s.Goes f (t.onLoop g) :=
  ⟨⟨h.calm.deps, h.calm.orgs⟩, h.step⟩

theorem Calm.answer_orgs (h : s.Calm) (q : Request OrganizationSpec) :
    s.Goes none (s.answer true q).2 := by
  cases q with
  | get key =>
    obtain ⟨-, calm, view⟩ := seen_orgs.get h key
    exact ⟨calm, view ▸ .rest⟩
  | update o => exact h.organization (.update o)
  | updateStatus o => exact h.organization (.updateStatus o)
  | clock => exact h.stays
  | logic a =>
    cases a with
    | organizations =>
      obtain ⟨-, calm, view⟩ := seen_orgs.list h
      exact ⟨calm, view ▸ .rest⟩
    | nextDelay | forget => exact h.stays.onLoop _
    | sleep | entered => exact h.stays

theorem Calm.asked_orgs (h : s.Calm) (l : Loop OrganizationSpec) (key : Key) (deadline : Nat)
    (q : Request OrganizationSpec) (next : q.Answer → Pass OrganizationSpec Outcome) :
    s.Goes none (s.asked l key deadline q next).2 := by
  have answered := h.answer_orgs q
  cases q with
  | get | update | updateStatus | clock => exact answered
  | logic a =>
    cases a with
    | sleep d =>
      unfold asked
      dsimp only
      split <;> exact h.stays
    | organizations | nextDelay | forget | entered => exact answered

theorem Calm.work_orgs (h : s.Calm) (id : Nat) : s.Goes none (s.work OrganizationSpec id) := by
  unfold work
  split
  · exact h.stays
  · split
    · exact h.stays
    · exact h.stays
    · exact h.stays.onLoop _
    · split
      · exact h.stays.onLoop _
      · exact h.stays
    · split
      · exact h.stays.onLoop _
      · split
        · exact h.stays.onLoop _
        · exact h.stays
    · exact (show s.Goes none { s with rank := s.rank + 1 } from ⟨⟨h.deps, h.orgs⟩, .rest⟩).onLoop _
    · exact (h.asked_orgs _ _ _ _ _).onLoop _

end Cluster

end Tenancy
