import Tenancy.Proofs.Control.Loop

/-! What is seen of a cluster that nobody disturbs: the stores, and the loop of deployments. While
the loop runs each step is one of its desk, so every deployment stays attended; before that no pass
is made, and the launch queues all that there are. -/

namespace Tenancy

structure Scene where
  deps : Store DeploymentSpec
  orgs : Store OrganizationSpec
  loop : Option (Loop DeploymentSpec)

namespace Scene

inductive Step (v : Scene) : Option (Key × Outcome) → Scene → Prop
  | rest : Step v none v
  | organization (w : Write OrganizationSpec) :
    Step v none ⟨v.deps, (v.orgs.write w).store, v.loop.map (·.hear (v.orgs.write w).change)⟩
  | client (w : Write DeploymentSpec) (hw : ∀ o, w ≠ .updateStatus o) :
    Step v none ⟨(v.deps.write w).store, v.orgs, v.loop.map (·.hearOwn (v.deps.write w).change)⟩
  | setUp (settings : Settings) (timing : Timing) (vacant : v.loop = none) :
    Step v none { v with loop := some (.new settings timing Deployment.logic false true) }
  | launch {l} (present : v.loop = some l) (state : l.state = .launching) :
    Step v none { v with loop := some (l.launch (.ok v.deps.list)) }
  | halt {l} (present : v.loop = some l) : Step v none { v with loop := some l.halt }
  | ask {l i key deadline q r a w} {next : q.Answer → Pass DeploymentSpec Outcome} (pacer : Pacer)
    (present : v.loop = some l) (at_ : l.workers[i]? = some (.working key (.ask q next) deadline))
    (asked : Stores.Asked ⟨v.deps, v.orgs⟩ q r a) (goesOn : w.job? = some (key, next r)) :
    Step v none ⟨a.deps, a.orgs, some (({ l with pacer }.hearOwn
      (q.write?.bind fun w => (v.deps.write w).change)).setWorker i w)⟩
  | inner {l l' f} (present : v.loop = some l) (goes : l.Goes v.deps v.orgs f l') :
    Step v f { v with loop := some l' }

structure Room (v v' : Scene) : Prop where
  own : ∀ l, v.loop = some l → v'.deps ≠ v.deps → l.own.backlog.length < Feed.capacity
  related : ∀ l, v.loop = some l → v'.orgs ≠ v.orgs →
    ∀ f, l.related = some f → f.backlog.length < Feed.capacity

/-- Before the launch no pass is made; while the loop runs every deployment is attended. -/
structure Sound (v : Scene) (last : Key → Option Outcome) : Prop where
  deps : v.deps.Keyed
  orgs : v.orgs.Keyed
  launching : ∀ l, v.loop = some l → l.state = .launching → l.Plugged ∧
    (l.desk v.deps v.orgs).Tidy ∧ (l.desk v.deps v.orgs).jobs = [] ∧
    ∀ k, k ∉ l.lobby.queue.processing
  running : ∀ l, v.loop = some l → l.state = .running → l.Plugged ∧
    (l.desk v.deps v.orgs).Tidy ∧ ∀ k, (l.desk v.deps v.orgs).Attended last k

variable {v v' : Scene} {last : Key → Option Outcome} {f : Option (Key × Outcome)}
  {l l' : Loop DeploymentSpec}

theorem Sound.follow (h : v.Sound last) {deps : Store DeploymentSpec}
    {orgs : Store OrganizationSpec} (present : v.loop = some l) (keyedDeps : deps.Keyed)
    (keyedOrgs : orgs.Keyed) (state : l'.state = l.state)
    (desk : l.Plugged → l'.Plugged ∧ Desk.Step (l.desk v.deps v.orgs) f (l'.desk deps orgs)) :
    Sound ⟨deps, orgs, some l'⟩ (Desk.record last f) := by
  refine ⟨keyedDeps, keyedOrgs, ?_, ?_⟩
  · rintro _ ⟨⟩ launching
    obtain ⟨plugged, tidy, jobs, idle⟩ := h.launching l present (state.symm.trans launching)
    obtain ⟨plugged', step⟩ := desk plugged
    obtain ⟨jobs', processing⟩ := step.of_jobs_nil jobs
    refine ⟨plugged', tidy.step step, jobs', fun k hk => idle k ?_⟩
    have : k ∈ (l.desk v.deps v.orgs).queue.processing := processing ▸ hk
    exact this
  · rintro _ ⟨⟩ running
    obtain ⟨plugged, tidy, attended⟩ := h.running l present (state.symm.trans running)
    obtain ⟨plugged', step⟩ := desk plugged
    exact ⟨plugged', tidy.step step, fun k => (attended k).step tidy step⟩

theorem sound_of_none {deps : Store DeploymentSpec} {orgs : Store OrganizationSpec}
    (keyedDeps : deps.Keyed) (keyedOrgs : orgs.Keyed) : Sound ⟨deps, orgs, none⟩ last := by
  refine ⟨keyedDeps, keyedOrgs, ?_, ?_⟩ <;> (intro _ h; cases h)

theorem Sound.organization (h : v.Sound last) (w : Write OrganizationSpec)
    (room : v.Room ⟨v.deps, (v.orgs.write w).store, v.loop.map (·.hear (v.orgs.write w).change)⟩) :
    Sound ⟨v.deps, (v.orgs.write w).store, v.loop.map (·.hear (v.orgs.write w).change)⟩ last := by
  have keyed := Desk.keyed_write h.orgs w
  cases hl : v.loop with
  | none => exact sound_of_none h.deps keyed
  | some l =>
    refine h.follow (f := none) hl h.deps keyed rfl fun plugged => ⟨plugged.hear _, ?_⟩
    have desk := Loop.desk_hear plugged
      (fun hc => room.related l hl (Store.write_ne h.orgs hc)) v.deps (v.orgs.write w).store
    rw [desk]
    exact .organization w

theorem Sound.client (h : v.Sound last) (w : Write DeploymentSpec) (hw : ∀ o, w ≠ .updateStatus o)
    (room : v.Room
      ⟨(v.deps.write w).store, v.orgs, v.loop.map (·.hearOwn (v.deps.write w).change)⟩) :
    Sound ⟨(v.deps.write w).store, v.orgs, v.loop.map (·.hearOwn (v.deps.write w).change)⟩
      last := by
  have keyed := Desk.keyed_write h.deps w
  cases hl : v.loop with
  | none => exact sound_of_none keyed h.orgs
  | some l =>
    refine h.follow (f := none) hl keyed h.orgs rfl fun plugged => ⟨plugged.hearOwn _, ?_⟩
    have desk := Loop.desk_hearOwn plugged
      (fun hc => room.own l hl (Store.write_ne h.deps hc)) (v.deps.write w).store v.orgs
    rw [desk]
    exact .client w hw

theorem Sound.setUp (h : v.Sound last) (settings : Settings) (timing : Timing) :
    Sound { v with loop := some (.new settings timing Deployment.logic false true) } last := by
  refine ⟨h.deps, h.orgs, ?_, ?_⟩
  · rintro _ ⟨⟩ -
    refine ⟨⟨rfl, ⟨rfl, rfl⟩, _, rfl, rfl, rfl⟩, ?_, rfl, fun k => Std.ExtTreeSet.not_mem_empty⟩
    exact ⟨h.deps, h.orgs, .empty, rfl, nofun, nofun, nofun⟩
  · rintro _ ⟨⟩ running
    cases running

theorem Sound.launch (h : v.Sound last) (present : v.loop = some l) (state : l.state = .launching) :
    Sound { v with loop := some (l.launch (.ok v.deps.list)) } last := by
  obtain ⟨plugged, tidy, -, idle⟩ := h.launching l present state
  refine ⟨h.deps, h.orgs, ?_, ?_⟩
  · rintro _ ⟨⟩ launching
    cases launching
  rintro _ ⟨⟩ -
  have processing := WorkQueue.processing_addAll l.lobby.queue (v.deps.list.map (·.key))
  have unoccupied (n i : Nat) (k : Key) (p : Pass DeploymentSpec Outcome) :
      (List.replicate n none : List (Option (Key × Pass DeploymentSpec Outcome)))[i]? ≠
        some (some (k, p)) := by
    intro at_
    rw [List.getElem?_replicate] at at_
    split at at_ <;> cases at_
  rw [Loop.desk_launch]
  refine ⟨plugged.launch _, ⟨h.deps, h.orgs, tidy.queue.addAll _, ?_, ?_, ?_, ?_⟩, fun k => ?_⟩
  · exact (WorkQueue.closed_addAll _ _).trans tidy.open_
  · exact fun i k p at_ => absurd at_ (unoccupied _ i k p)
  · exact fun i j k p q at_ => absurd at_ (unoccupied _ i k p)
  · exact fun i k p at_ => absurd at_ (unoccupied _ i k p)
  · -- what is there is queued, and what is not there has nothing to show
    cases hd : v.deps.get? k with
    | none =>
      refine .inr (.inr ⟨fun hk => idle k (processing ▸ hk), fun _ _ _ d present => ?_⟩)
      cases hd.symm.trans present
    | some d =>
      refine .inl (.inr (.inr (.inr ((WorkQueue.mem_dirty_addAll tidy.open_).2 (.inr ?_)))))
      have key := h.deps k d hd
      exact List.mem_map.2 ⟨d, (Store.mem_list h.deps).2 (key ▸ hd), key⟩

theorem Sound.halt (h : v.Sound last) (present : v.loop = some l) :
    Sound { v with loop := some l.halt } last := by
  by_cases running : l.state = .running
  · have state : l.halt.state = .stopping := by
      unfold Loop.halt
      rw [running]
    refine ⟨h.deps, h.orgs, ?_, ?_⟩
    · rintro _ ⟨⟩ launching
      cases state.symm.trans launching
    · rintro _ ⟨⟩ running
      cases state.symm.trans running
  · -- at most it is noted that the loop is to stop
    have noted : ∃ told, l.halt = { l with told } := by
      unfold Loop.halt
      split
      · rename_i state
        exact absurd state running
      · exact ⟨true, rfl⟩
      · exact ⟨l.told, rfl⟩
    obtain ⟨told, noted⟩ := noted
    rw [noted]
    exact h.follow (f := none) present h.deps h.orgs rfl fun plugged =>
      ⟨⟨plugged.logic, plugged.own, plugged.related⟩, .rest⟩

theorem asked_ne {a b : Stores} {q : Request DeploymentSpec} {r : q.Answer}
    (asked : Stores.Asked a q r b) (keyed : a.deps.Keyed)
    (hc : (q.write?.bind fun w => (a.deps.write w).change) ≠ none) : b.deps ≠ a.deps := by
  cases asked with
  | update o => exact Store.write_ne (w := .update o) keyed hc
  | updateStatus o => exact Store.write_ne (w := .updateStatus o) keyed hc
  | get | clock | organizations | logic => exact absurd rfl hc

theorem Sound.ask (h : v.Sound last) {i deadline : Nat} {key : Key} {q : Request DeploymentSpec}
    {next : q.Answer → Pass DeploymentSpec Outcome} {r : q.Answer} {a : Stores}
    {w : Worker DeploymentSpec} {pacer : Pacer} (present : v.loop = some l)
    (at_ : l.workers[i]? = some (.working key (.ask q next) deadline))
    (asked : Stores.Asked ⟨v.deps, v.orgs⟩ q r a) (goesOn : w.job? = some (key, next r))
    (room : a.deps ≠ v.deps → l.own.backlog.length < Feed.capacity) :
    Sound ⟨a.deps, a.orgs, some (({ l with pacer }.hearOwn
      (q.write?.bind fun w => (v.deps.write w).change)).setWorker i w)⟩ last := by
  have keyed := Desk.keyed_asked asked h.deps h.orgs
  refine h.follow (f := none) present keyed.1 keyed.2 rfl fun plugged => ?_
  have paced : Loop.Plugged { l with pacer } := ⟨plugged.logic, plugged.own, plugged.related⟩
  have heard := paced.hearOwn (q.write?.bind fun w => (v.deps.write w).change)
  refine ⟨⟨heard.logic, heard.own, heard.related⟩, ?_⟩
  have has : (l.desk v.deps v.orgs).Has i key (.ask q next) := by
    simp only [Desk.Has, Loop.desk, List.getElem?_map, at_, Option.map_some, Worker.job?]
  have step := Desk.Step.ask has asked
  have desk := Loop.desk_hearOwn paced (fun hc => room (asked_ne asked h.deps hc)) a.deps a.orgs
  have set (m : Loop DeploymentSpec) : (m.setWorker i w).desk a.deps a.orgs =
      (m.desk a.deps a.orgs).setJob i (some (key, next r)) := by
    simp only [Loop.desk, Loop.setWorker, Desk.setJob, List.map_set, goesOn]
  rw [set, desk]
  exact step

theorem Sound.step (h : v.Sound last) (step : Step v f v') (room : v.Room v') :
    v'.Sound (Desk.record last f) := by
  cases step with
  | rest => exact h
  | organization w => exact h.organization w room
  | client w hw => exact h.client w hw room
  | setUp settings timing => exact h.setUp settings timing
  | launch present state => exact h.launch present state
  | halt present => exact h.halt present
  | ask pacer present at_ asked goesOn =>
    exact h.ask present at_ asked goesOn fun changed => room.own _ present changed
  | inner present goes =>
    exact h.follow present h.deps h.orgs goes.state fun plugged =>
      ⟨goes.plugged plugged, goes.desk plugged⟩

end Scene
end Tenancy
