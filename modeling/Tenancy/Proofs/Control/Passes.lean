import Tenancy.Proofs.Control.Moves

/-! The loop of deployments in a calm cluster: whatever it does, and whatever happens around it, is
one step of the scene. -/

namespace Tenancy

theorem Loop.state_of_launching {S : Type} {l : Loop S} (h : l.launching = true) :
    l.state = .launching := by
  unfold launching at h
  split at h
  · assumption
  · cases h

namespace Cluster

variable {s t : Cluster} {f : Option (Key × Outcome)} {l : Loop DeploymentSpec}
  {id deadline : Nat} {key : Key} {w : Worker DeploymentSpec}

theorem view_onLoop (present : s.deps.loop = some l)
    (g : Loop DeploymentSpec → Loop DeploymentSpec) :
    (s.onLoop g).view = { s.view with loop := some (g l) } := by
  unfold Cluster.view onLoop onSide
  dsimp only [Hosted.side, Hosted.setSide]
  rw [present, Option.map_some]

theorem view_onLoop_vacant (vacant : s.deps.loop = none)
    (g : Loop DeploymentSpec → Loop DeploymentSpec) : (s.onLoop g).view = s.view := by
  unfold Cluster.view onLoop onSide
  dsimp only [Hosted.side, Hosted.setSide]
  rw [vacant, Option.map_none]

theorem view_paced (present : s.deps.loop = some l) (p : Pacer → Pacer) :
    (s.paced DeploymentSpec true p).view =
      { s.view with loop := some { l with pacer := p l.pacer } } :=
  view_onLoop present _

theorem Calm.turn (h : s.Calm) (present : s.deps.loop = some l)
    {g : Loop DeploymentSpec → Loop DeploymentSpec}
    (goes : l.Goes s.view.deps s.view.orgs f (g l)) : s.Goes f (s.onLoop g) :=
  ⟨⟨h.deps, h.orgs⟩, view_onLoop present g ▸ .inner present goes⟩

theorem Calm.turn? (h : s.Calm) {g : Loop DeploymentSpec → Loop DeploymentSpec}
    (goes : ∀ l : Loop DeploymentSpec, l.Goes s.view.deps s.view.orgs none (g l)) :
    s.Goes none (s.onLoop g) := by
  cases present : s.deps.loop with
  | some l => exact h.turn present (goes l)
  | none => exact ⟨⟨h.deps, h.orgs⟩, view_onLoop_vacant present g ▸ .rest⟩

/-! ### Questions -/

def stores (s : Cluster) : Stores := ⟨s.view.deps, s.view.orgs⟩

theorem Calm.answer_deps (h : s.Calm) (present : s.deps.loop = some l)
    (q : Request DeploymentSpec) :
    (s.answer true q).2.Calm ∧ ∃ (b : Stores) (pacer : Pacer),
      Stores.Asked s.stores q (s.answer true q).1 b ∧
      (s.answer true q).2.view = ⟨b.deps, b.orgs, some ((Loop.hearOwn { l with pacer }
        (q.write?.bind fun w => (s.view.deps.write w).change)))⟩ := by
  have still : s.view = ⟨s.view.deps, s.view.orgs, some l⟩ := by
    rw [← present]
    rfl
  cases q with
  | get key =>
    obtain ⟨answer, calm, view⟩ := seen_deps.get h key
    have asked : Stores.Asked s.stores (.get key) (s.get DeploymentSpec key).1 s.stores := by
      rw [answer]
      exact .get key
    exact ⟨calm, s.stores, l.pacer, asked, view.trans still⟩
  | update o =>
    have plain := plain_call h.deps s.clock .update (some o.key) (·.update o)
    obtain ⟨answer, calm, view⟩ := seen_deps.call h plain
    have asked : Stores.Asked s.stores (.update o) (s.update o).1
        ⟨(s.view.deps.update o).store, s.view.orgs⟩ := by
      have answer : (s.update o).1 = (s.view.deps.update o).answer := answer
      rw [answer]
      exact .update o
    rw [still] at view
    exact ⟨calm, _, l.pacer, asked, view⟩
  | updateStatus o =>
    have plain := plain_call h.deps s.clock .updateStatus (some o.key) (·.updateStatus o)
    obtain ⟨answer, calm, view⟩ := seen_deps.call h plain
    have asked : Stores.Asked s.stores (.updateStatus o) (s.updateStatus o).1
        ⟨(s.view.deps.updateStatus o).store, s.view.orgs⟩ := by
      have answer : (s.updateStatus o).1 = (s.view.deps.updateStatus o).answer := answer
      rw [answer]
      exact .updateStatus o
    rw [still] at view
    exact ⟨calm, _, l.pacer, asked, view⟩
  | clock => exact ⟨h, s.stores, l.pacer, .clock s.clock, still⟩
  | logic a =>
    cases a with
    | organizations =>
      obtain ⟨answer, calm, view⟩ := seen_orgs.list h
      have asked : Stores.Asked s.stores (.logic .organizations) (s.list OrganizationSpec).1
          s.stores := by
        rw [answer]
        exact .organizations
      exact ⟨calm, s.stores, l.pacer, asked, view.trans still⟩
    | nextDelay identity =>
      exact ⟨⟨h.deps, h.orgs⟩, s.stores, (l.pacer.nextDelay identity).2,
        .logic (fun ha => by cases ha) _, view_paced present fun p => (p.nextDelay identity).2⟩
    | forget identity =>
      exact ⟨⟨h.deps, h.orgs⟩, s.stores, l.pacer.forget identity,
        .logic (fun ha => by cases ha) _, view_paced present (·.forget identity)⟩
    | sleep | entered =>
      exact ⟨h, s.stores, l.pacer, .logic (fun ha => by cases ha) _, still⟩

theorem Calm.follow (h : s.Calm) (present : s.deps.loop = some l) {q : Request DeploymentSpec}
    {next : q.Answer → Pass DeploymentSpec Outcome}
    (at_ : l.workers[id]? = some (.working key (.ask q next) deadline))
    (goesOn : w.job? = some (key, next (s.answer true q).1)) :
    s.Goes none ((s.answer true q).2.onLoop fun l : Loop DeploymentSpec => l.setWorker id w) := by
  obtain ⟨calm, b, pacer, asked, view⟩ := h.answer_deps present q
  have loop := congrArg Scene.loop view
  have after := view_onLoop loop (·.setWorker id w)
  rw [view] at after
  exact ⟨⟨calm.deps, calm.orgs⟩, after ▸ .ask pacer present at_ asked goesOn⟩

theorem goes_expired {deps : Store DeploymentSpec} {orgs : Store OrganizationSpec}
    {p : Pass DeploymentSpec Outcome} (pacer : Pacer) (deadline : Nat)
    (at_ : l.workers[id]? = some w) (has : w.job? = some (key, p)) :
    l.Goes deps orgs none
      (Loop.setWorker { l with pacer } id (.working key (expired l) deadline)) :=
  Loop.goes_stop pacer at_ has fun hc => hc

theorem Calm.asked_deps (h : s.Calm) (present : s.deps.loop = some l) {q : Request DeploymentSpec}
    {next : q.Answer → Pass DeploymentSpec Outcome}
    (at_ : l.workers[id]? = some (.working key (.ask q next) deadline)) :
    s.Goes none ((s.asked l key deadline q next).2.onLoop fun m : Loop DeploymentSpec =>
      m.setWorker id (s.asked l key deadline q next).1) := by
  cases q with
  | get | update | updateStatus | clock => exact h.follow present at_ rfl
  | logic a =>
    cases a with
    | organizations | forget | entered => exact h.follow present at_ rfl
    | sleep d =>
      unfold asked
      dsimp only
      split <;> exact h.follow present at_ rfl
    | nextDelay identity =>
      unfold asked
      dsimp only
      split
      · -- The deadline has come in the question itself, which has set the pace already.
        have paced := view_paced present fun p => (p.nextDelay identity).2
        have after := view_onLoop (congrArg Scene.loop paced)
          (·.setWorker id (.working key (expired l) deadline))
        have step := Scene.Step.inner (v := s.view) present
          (goes_expired (l.pacer.nextDelay identity).2 deadline at_ rfl)
        rw [paced] at after
        rw [← after] at step
        exact ⟨⟨h.deps, h.orgs⟩, step⟩
      · exact h.follow present at_ rfl

theorem finished_work (present : s.deps.loop = some l) (at_ : l.workers[id]? = some w) :
    s.finished (.task (.work .deployment id)) = w.outcome? := by
  unfold finished
  dsimp only
  rw [present, Option.bind_some, at_, Option.bind_some]

theorem Calm.work_deps (h : s.Calm) (id : Nat) :
    s.Goes (s.finished (.task (.work .deployment id))) (s.work DeploymentSpec id) := by
  unfold work loop?
  dsimp only [Hosted.side]
  cases present : s.deps.loop with
  | none =>
    have finished : s.finished (.task (.work .deployment id)) = none := by
      unfold finished
      dsimp only
      rw [present, Option.bind_none, Option.bind_none]
    exact finished ▸ h.stays
  | some l =>
    dsimp only
    have begun (p : l.Plugged) (k : Key) : (s.beginPass l k).job? =
        some (k, Pass.run Deployment.logic .inStore l.settings.shortWait k) := by
      rw [← p.logic]
      rfl
    cases at_ : l.workers[id]? with
    | none =>
      have finished : s.finished (.task (.work .deployment id)) = none := by
        unfold finished
        dsimp only
        rw [present, Option.bind_some, at_, Option.bind_none]
      exact finished ▸ h.stays
    | some w =>
      rw [finished_work present at_]
      cases w with
      | ended => exact h.stays
      | free =>
        have served := Lobby.served_pop l.lobby id
        exact h.turn present (Loop.goes_looked _ at_ rfl served begun)
      | waiting =>
        dsimp only
        split
        · have served := Lobby.served_resume l.lobby id
          exact h.turn present (Loop.goes_looked _ at_ rfl served begun)
        · exact h.stays
      | asleep key rest wake deadline =>
        dsimp only
        split
        · exact h.turn present (Loop.goes_wake at_ rfl)
        · split
          · exact h.turn present (goes_expired l.pacer deadline at_ rfl)
          · exact h.stays
      | working key pass deadline =>
        cases pass with
        | done r =>
          -- the timers that were set are counted, which is not seen
          have counted : Calm { s with rank := s.rank + 1 } := ⟨h.deps, h.orgs⟩
          have goes : l.Goes s.view.deps s.view.orgs (some (key, r))
              (l.finish id s.now s.rank key r) := Loop.goes_finish at_ s.now s.rank
          obtain ⟨calm, step⟩ :=
            counted.turn (g := fun _ => l.finish id s.now s.rank key r) present goes
          exact ⟨calm, step⟩
        | ask q next => exact h.asked_deps present at_

/-! ### Feeds -/

theorem Calm.relate (h : s.Calm) (l : Loop DeploymentSpec) :
    (s.relate l).2.Calm ∧ (s.relate l).2.view = s.view ∧
      l.Goes s.view.deps s.view.orgs none (s.relate l).1 := by
  have same : l.Goes s.view.deps s.view.orgs none l := Loop.goes_same rfl id rfl
  unfold Cluster.relate
  split
  · rename_i empty
    have free : l.concerned = [] := List.isEmpty_iff.1 empty
    cases related : l.related with
    | none => exact ⟨h, rfl, same⟩
    | some feed =>
      dsimp only [Option.map_some]
      cases backlog : feed.backlog with
      | nil =>
        have head : feed.take.1 = none := by rw [Feed.take, backlog, List.head?_nil]
        rw [head]
        exact ⟨h, rfl, Loop.goes_lookRelated related backlog⟩
      | cons c cs =>
        have head : feed.take.1 = some c := by rw [Feed.take, backlog, List.head?_cons]
        have goes : l.Goes s.view.deps s.view.orgs none _ :=
          Loop.goes_takeRelated related backlog free
        rw [head, Option.any_some]
        split
        · rename_i changed
          obtain ⟨answer, calm, view⟩ := seen_deps.list h
          rw [if_pos changed] at goes
          have listed : s.list DeploymentSpec =
              (.ok s.view.deps.list, (s.list DeploymentSpec).2) := Prod.ext answer rfl
          rw [listed]
          exact ⟨calm, view, goes⟩
        · rename_i changed
          rw [if_neg changed, ← free] at goes
          exact ⟨h, rfl, goes⟩
  · exact ⟨h, rfl, l.goes_enqueueConcerned⟩

theorem Calm.takeRelated (h : s.Calm) : s.Goes none s.takeRelated := by
  unfold Cluster.takeRelated
  split
  · exact h.stays
  · rename_i l present
    obtain ⟨calm, view, goes⟩ := h.relate l
    have after := view_onLoop ((congrArg Scene.loop view).trans present) fun _ => (s.relate l).1
    rw [view] at after
    exact ⟨⟨calm.deps, calm.orgs⟩, after ▸ .inner present goes⟩

theorem Calm.takeStray (h : s.Calm) (id : Nat) : s.Goes none (s.takeStray id) := by
  unfold Cluster.takeStray
  split
  · exact h.stays
  · rename_i l _
    obtain ⟨calm, view, -⟩ := h.relate l
    have stays : Scene.Step s.view none (s.relate l).2.view := view ▸ .rest
    exact ⟨⟨calm.deps, calm.orgs⟩, stays⟩

/-! ### The life of the loop -/

theorem Calm.launch_deps (h : s.Calm) (present : s.deps.loop = some l)
    (state : l.state = .launching) : s.Goes none (s.launch DeploymentSpec) := by
  obtain ⟨answer, calm, view⟩ := seen_deps.list h
  have still := (congrArg Scene.loop view).trans present
  have after := view_onLoop still (·.launch (.ok s.view.deps.list))
  rw [view] at after
  have step := Scene.Step.launch (v := s.view) present state
  rw [← after] at step
  unfold Cluster.launch
  dsimp only
  rw [answer]
  exact ⟨⟨calm.deps, calm.orgs⟩, step⟩

theorem Calm.halt_deps (h : s.Calm) : s.Goes none (s.halt DeploymentSpec) := by
  cases present : s.deps.loop with
  | some l => exact ⟨⟨h.deps, h.orgs⟩, view_onLoop present (·.halt) ▸ .halt present⟩
  | none => exact ⟨⟨h.deps, h.orgs⟩, view_onLoop_vacant present (·.halt) ▸ .rest⟩

theorem comeUp_eq {S : Type} [Hosted S] {l : Loop S} (present : s.loop? S = some l) :
    s.comeUp S = if l.launching then s.launch S else s.halt S := by
  rw [comeUp, present, Option.map_some, Option.getD_some]

theorem Calm.comeUp_orgs (h : s.Calm) : s.Goes none (s.comeUp OrganizationSpec) := by
  obtain ⟨-, calm, view⟩ := seen_orgs.list h
  have listed : s.Goes none (s.list OrganizationSpec).2 := ⟨calm, view ▸ .rest⟩
  unfold comeUp
  split
  · exact listed.onLoop _
  · exact h.stays.onLoop _

theorem Calm.comeUp_deps (h : s.Calm) : s.Goes none (s.comeUp DeploymentSpec) := by
  cases present : s.loop? DeploymentSpec with
  | none =>
    unfold comeUp
    rw [present]
    exact h.halt_deps
  | some l =>
    rw [comeUp_eq present]
    split
    · rename_i launching
      exact h.launch_deps present (Loop.state_of_launching launching)
    · exact h.halt_deps

theorem Calm.setUp (h : s.Calm) {k : ObjectKind} {name : String}
    (vacant : k.on (fun S => (s.loop? S).isNone) = true)
    (done : s.setUpOne false k = .ok (name, t)) : s.Goes none t := by
  cases k with
  | organization =>
    unfold setUpOne ObjectKind.on at done
    dsimp only at done
    split at done
    · cases done
    · cases done
      exact ⟨⟨h.deps, h.orgs⟩, .rest⟩
  | deployment =>
    unfold setUpOne ObjectKind.on at done
    dsimp only at done
    split at done
    · cases done
    · cases done
      exact ⟨⟨h.deps, h.orgs⟩, .setUp _ _ (Option.isNone_iff_eq_none.1 vacant)⟩

theorem Calm.giveUp (h : s.Calm) (k : ObjectKind) (id : Nat) :
    s.Goes none (k.on fun S => s.giveUp S id) := by
  cases k with
  | organization =>
    unfold ObjectKind.on Cluster.giveUp
    dsimp only
    split
    · exact h.stays
    · split
      · split
        · exact h.stays.onLoop _
        · exact h.stays
      · exact h.stays
  | deployment =>
    unfold ObjectKind.on Cluster.giveUp
    dsimp only
    split
    · exact h.stays
    · rename_i l present
      split
      · rename_i at_
        split
        · exact h.turn present (goes_expired l.pacer _ at_ rfl)
        · exact h.stays
      · exact h.stays

theorem Calm.task (h : s.Calm) (t : Task) : s.Goes (s.finished (.task t)) (s.step t) := by
  cases t with
  | timer k t =>
    cases k with
    | organization => exact h.stays.onLoop _
    | deployment => exact h.turn? fun l => l.goes_fire t
  | launch k =>
    cases k with
    | organization => exact h.comeUp_orgs
    | deployment => exact h.comeUp_deps
  | takeOwn k =>
    cases k with
    | organization => exact h.stays.onLoop _
    | deployment => exact h.turn? fun l => l.goes_readOwn
  | takeStray id => exact h.takeStray id
  | takeRelated => exact h.takeRelated
  | work k id =>
    cases k with
    | organization => exact h.work_orgs id
    | deployment => exact h.work_deps id

/-- A calm cluster stays calm, and every move is one step of its scene. -/
theorem Calm.move (h : s.Calm) {m : Move} (made : s.move? m = some t) :
    s.Goes (s.finished m) t := by
  unfold move? at made
  cases m with
  | organization c =>
    cases made
    exact h.organization c
  | deployment c =>
    cases c with
    | updateStatus => cases made
    | create | delete | update =>
      cases made
      exact h.deployment _ fun o ho => by cases ho
  | task task =>
    dsimp only at made
    split at made
    · cases made
      exact h.task task
    · cases made
  | giveUp k id =>
    cases made
    exact h.giveUp k id
  | setUp k =>
    dsimp only at made
    split at made
    · rename_i vacant
      split at made
      · rename_i done
        cases made
        exact h.setUp vacant done
      · cases made
    · cases made
  | halt k =>
    cases made
    cases k with
    | organization => exact h.stays.onLoop _
    | deployment => exact h.halt_deps
  | tick now clock =>
    cases made
    exact ⟨⟨h.deps, h.orgs⟩, .rest⟩

end Cluster
end Tenancy
