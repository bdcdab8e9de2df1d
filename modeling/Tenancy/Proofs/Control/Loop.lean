import Tenancy.Proofs.Control.Attention
import Tenancy.Proofs.Control.Crew

/-! The desk of a loop of deployments: what matters of its feeds, its lobby and its workers. What
the loop does by itself is a step of the desk. -/

namespace Tenancy

namespace Loop

variable (l : Loop DeploymentSpec)

structure Plugged : Prop where
  logic : l.logic = Deployment.logic
  own : l.own.active = true ∧ l.own.byHand = false
  related : ∃ f, l.related = some f ∧ f.active = true ∧ f.byHand = false

def desk (deps : Store DeploymentSpec) (orgs : Store OrganizationSpec) : Desk where
  deps := deps
  orgs := orgs
  own := l.own.backlog
  related := (l.related.map (·.backlog)).getD []
  arrived := l.arrived
  concerned := l.concerned
  queue := l.lobby.queue
  jobs := l.workers.map Worker.job?

def hear (c : Option (Change OrganizationSpec)) : Loop DeploymentSpec :=
  { l with related := l.related.map fun f => c.elim f f.publish }

theorem desk_launch (os : List Deployment) (deps : Store DeploymentSpec)
    (orgs : Store OrganizationSpec) :
    (l.launch (.ok os)).desk deps orgs = { l.desk deps orgs with
      queue := l.lobby.queue.addAll (os.map (·.key))
      jobs := List.replicate (max 1 l.settings.workers.toNat) none } := by
  rw [launch_eq]
  cases related : l.related <;>
    simp [desk, related, queue_enqueueAll, Feed.read, Worker.job?]

variable {l l' : Loop DeploymentSpec}

theorem Plugged.launch (h : l.Plugged) (os : List Deployment) : (l.launch (.ok os)).Plugged := by
  obtain ⟨f, hf, fits⟩ := h.related
  rw [launch_eq]
  refine ⟨h.logic, h.own, f.read, ?_, fits⟩
  dsimp only
  rw [hf, Option.map_some]

theorem Plugged.hearOwn (h : l.Plugged) (c : Option (Change DeploymentSpec)) :
    (l.hearOwn c).Plugged := by
  cases c with
  | none => exact h
  | some c =>
    have active := (Feed.active_publish l.own c).trans h.own.1
    have byHand := (Feed.byHand_publish l.own c).trans h.own.2
    exact ⟨h.logic, ⟨active, byHand⟩, h.related⟩

theorem Plugged.hear (h : l.Plugged) (c : Option (Change OrganizationSpec)) :
    (l.hear c).Plugged := by
  obtain ⟨f, hf, active, byHand⟩ := h.related
  refine ⟨h.logic, h.own, c.elim f f.publish, ?_, ?_⟩
  · rw [Loop.hear, hf]
    rfl
  · cases c with
    | none => exact ⟨active, byHand⟩
    | some c => exact ⟨(f.active_publish c).trans active, (f.byHand_publish c).trans byHand⟩

theorem desk_hearOwn (h : l.Plugged) {c : Option (Change DeploymentSpec)}
    (room : c ≠ none → l.own.backlog.length < Feed.capacity) (deps : Store DeploymentSpec)
    (orgs : Store OrganizationSpec) :
    (l.hearOwn c).desk deps orgs =
      { l.desk deps orgs with own := (l.desk deps orgs).own ++ c.toList } := by
  cases c with
  | none => simp [hearOwn, desk]
  | some c =>
    have grown := Feed.backlog_publish h.own.1 h.own.2 (room (by simp)) c
    simp only [hearOwn, desk, Option.elim_some, grown, Option.toList_some]

theorem desk_hear (h : l.Plugged) {c : Option (Change OrganizationSpec)}
    (room : c ≠ none → ∀ f, l.related = some f → f.backlog.length < Feed.capacity)
    (deps : Store DeploymentSpec) (orgs : Store OrganizationSpec) :
    (l.hear c).desk deps orgs =
      { l.desk deps orgs with related := (l.desk deps orgs).related ++ c.toList } := by
  obtain ⟨f, hf, active, byHand⟩ := h.related
  cases c with
  | none => simp [hear, desk]
  | some c =>
    have grown := Feed.backlog_publish active byHand (room (by simp) f hf) c
    simp only [hear, desk, hf, Option.map_some, Option.getD_some, Option.elim_some, grown,
      Option.toList_some]

/-! ### What the loop does by itself -/

/-- The loop goes on by itself: its state stays, and if it is plugged, its desk makes a step. -/
structure Goes (l : Loop DeploymentSpec) (deps : Store DeploymentSpec)
    (orgs : Store OrganizationSpec) (f : Option (Key × Outcome)) (l' : Loop DeploymentSpec) :
    Prop where
  state : l'.state = l.state
  plugged : l.Plugged → l'.Plugged
  desk : l.Plugged → Desk.Step (l.desk deps orgs) f (l'.desk deps orgs)

variable {deps : Store DeploymentSpec} {orgs : Store OrganizationSpec} {i deadline : Nat}
  {w w' : Worker DeploymentSpec} {key : Key}

theorem desk_setWorker (l : Loop DeploymentSpec) (i : Nat) (w : Worker DeploymentSpec) :
    (l.setWorker i w).desk deps orgs = (l.desk deps orgs).setJob i w.job? := by
  simp only [desk, setWorker, Desk.setJob, List.map_set]

theorem desk_setWorker_same (at_ : l.workers[i]? = some w) (same : w'.job? = w.job?) :
    (l.setWorker i w').desk deps orgs = l.desk deps orgs := by
  have jobs : l.jobs.set i w'.job? = l.jobs :=
    (jobs_setWorker l i w').symm.trans (jobs_setWorker_same at_ same)
  rw [desk_setWorker]
  exact congrArg (fun jobs => { l.desk deps orgs with jobs }) jobs

theorem desk_lobby {lobby : Lobby} (same : lobby.queue = l.lobby.queue) :
    desk { l with lobby } deps orgs = l.desk deps orgs := by
  simp only [desk, same]

theorem goes_same (state : l'.state = l.state) (plugged : l.Plugged → l'.Plugged)
    (same : l'.desk deps orgs = l.desk deps orgs) : l.Goes deps orgs none l' :=
  ⟨state, plugged, fun _ => same ▸ .rest⟩

theorem goes_wake (at_ : l.workers[i]? = some w) (same : w'.job? = w.job?) :
    l.Goes deps orgs none (l.setWorker i w') :=
  goes_same rfl (fun h => ⟨h.logic, h.own, h.related⟩) (desk_setWorker_same at_ same)

theorem goes_stop {p : Pass DeploymentSpec Outcome} {r : Outcome} (pacer : Pacer)
    (at_ : l.workers[i]? = some w) (has : w.job? = some (key, p)) (hr : ¬r.Conclusive) :
    l.Goes deps orgs none (setWorker { l with pacer } i (.working key (.done r) deadline)) := by
  refine ⟨rfl, fun h => ⟨h.logic, h.own, h.related⟩, fun _ => ?_⟩
  have had : (l.desk deps orgs).Has i key p := (getElem?_jobs at_).trans (congrArg some has)
  rw [desk_setWorker]
  exact .stop had hr

theorem goes_finish {r : Outcome} (at_ : l.workers[i]? = some (.working key (.done r) deadline))
    (now rank : Nat) : l.Goes deps orgs (some (key, r)) (l.finish i now rank key r) := by
  refine ⟨rfl, fun h => ⟨h.logic, h.own, h.related⟩, fun _ => ?_⟩
  have step := Desk.Step.finish (d := l.desk deps orgs) (getElem?_jobs at_)
  unfold finish
  dsimp only
  rw [desk_setWorker]
  simp only [desk, Lobby.queue_done]
  exact step

theorem goes_fire (l : Loop DeploymentSpec) (t : Timer) : l.Goes deps orgs none (l.fire t) := by
  refine ⟨rfl, fun h => ⟨h.logic, h.own, h.related⟩, fun _ => ?_⟩
  have step := Desk.Step.add (d := l.desk deps orgs) t.key
  simp only [fire, enqueue, desk, Lobby.queue_add]
  exact step

theorem goes_looked {r : Lobby.Looked} {lobby : Lobby} {begin_ : Key → Worker DeploymentSpec}
    (wait : Span) (at_ : l.workers[i]? = some w) (idle : w.job? = none)
    (served : Lobby.Served l.lobby.queue (r, lobby))
    (first : l.Plugged → ∀ k,
      (begin_ k).job? = some (k, Pass.run Deployment.logic .inStore wait k)) :
    l.Goes deps orgs none (looked { l with lobby } i begin_ r) := by
  have same (hr : ∀ k, r ≠ .key k) : desk { l with lobby } deps orgs = l.desk deps orgs :=
    desk_lobby (served.2 hr)
  cases r with
  | key k =>
    refine ⟨rfl, fun h => ⟨h.logic, h.own, h.related⟩, fun h => ?_⟩
    have popped := served.1 k rfl
    have free : (l.desk deps orgs).jobs[i]? = some none := (getElem?_jobs at_).trans (by rw [idle])
    have next : (l.desk deps orgs).queue.pop = (.key k, lobby.queue) := popped
    have step := Desk.Step.begin_ wait free (congrArg Prod.fst next)
    rw [next] at step
    rw [looked, desk_setWorker, first h]
    exact step
  | again => exact goes_same rfl (fun h => ⟨h.logic, h.own, h.related⟩) (same nofun)
  | closed | suspended =>
    refine goes_same rfl (fun h => ⟨h.logic, h.own, h.related⟩) ?_
    refine (desk_setWorker_same (l := { l with lobby }) at_ ?_).trans (same nofun)
    exact idle.symm

theorem goes_takeOwn (l : Loop DeploymentSpec) (free : l.arrived = []) :
    l.Goes deps orgs none l.takeOwn := by
  have plugged (h : l.Plugged) : l.takeOwn.Plugged := by
    rw [takeOwn_eq l free]
    exact ⟨h.logic, h.own, h.related⟩
  refine ⟨by rw [takeOwn_eq l free], plugged, fun _ => ?_⟩
  rw [takeOwn_eq l free]
  cases hb : l.own.backlog with
  | nil =>
    have same : desk { l with own := l.own.take.2, arrived := l.news } deps orgs =
        l.desk deps orgs := by
      simp only [desk, Feed.take, news, hb, List.tail_nil, free]
    rw [same]
    exact .rest
  | cons c cs =>
    have next : (l.desk deps orgs).own = c :: cs := hb
    have step := Desk.Step.takeOwn (d := l.desk deps orgs) free next
    have taken : desk { l with own := l.own.take.2, arrived := l.news } deps orgs =
        { l.desk deps orgs with
          own := cs, arrived := if c.generationChanged then c.objects.map (·.key) else [] } := by
      simp only [desk, Feed.take, news, hb, List.tail_cons]
    rw [taken]
    exact step

theorem goes_enqueueArrived (l : Loop DeploymentSpec) :
    l.Goes deps orgs none l.enqueueArrived := by
  unfold enqueueArrived
  split
  · exact goes_same rfl id rfl
  · rename_i k ks hk
    refine ⟨rfl, fun h => ⟨h.logic, h.own, h.related⟩, fun _ => ?_⟩
    have step := Desk.Step.arrive (d := l.desk deps orgs) hk
    simp only [enqueue, desk, Lobby.queue_add]
    exact step

theorem goes_readOwn (l : Loop DeploymentSpec) : l.Goes deps orgs none l.readOwn := by
  unfold readOwn
  split
  · rename_i free
    exact l.goes_takeOwn (List.isEmpty_iff.1 free)
  · exact l.goes_enqueueArrived

theorem goes_enqueueConcerned (l : Loop DeploymentSpec) :
    l.Goes deps orgs none l.enqueueConcerned := by
  unfold enqueueConcerned
  split
  · exact goes_same rfl id rfl
  · rename_i k ks hk
    refine ⟨rfl, fun h => ⟨h.logic, h.own, h.related⟩, fun _ => ?_⟩
    have step := Desk.Step.concern (d := l.desk deps orgs) hk
    simp only [enqueue, desk, Lobby.queue_add]
    exact step

theorem goes_takeRelated {feed : Feed OrganizationSpec} {c : Change OrganizationSpec}
    {cs : List (Change OrganizationSpec)} (related : l.related = some feed)
    (backlog : feed.backlog = c :: cs) (free : l.concerned = []) :
    l.Goes deps orgs none { l with
      related := some feed.take.2
      concerned := if c.generationChanged then Fanout.keys deps.list c else [] } := by
  have next : (l.desk deps orgs).related = c :: cs := by
    rw [← backlog, desk, related]
    rfl
  have tail : feed.take.2.backlog = cs := by rw [Feed.take, backlog, List.tail_cons]
  refine ⟨rfl, fun h => ?_, fun h => ?_⟩
  · obtain ⟨old, hf, fits⟩ := h.related
    cases related.symm.trans hf
    exact ⟨h.logic, h.own, _, rfl, fits⟩
  · have step := Desk.Step.takeRelated (d := l.desk deps orgs) free next
    rw [← tail] at step
    exact step

theorem goes_lookRelated {feed : Feed OrganizationSpec} (related : l.related = some feed)
    (backlog : feed.backlog = []) :
    l.Goes deps orgs none { l with related := some feed.take.2 } := by
  refine goes_same rfl (fun h => ?_) ?_
  · obtain ⟨old, hf, fits⟩ := h.related
    cases related.symm.trans hf
    exact ⟨h.logic, h.own, _, rfl, fits⟩
  · simp only [desk, related, Option.map_some, Option.getD_some, Feed.take, backlog, List.tail_nil]

end Loop
end Tenancy
