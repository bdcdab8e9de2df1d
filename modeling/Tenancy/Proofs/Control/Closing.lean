import Mathlib.Logic.Hydra
import Tenancy.Proofs.Control.Host
import Tenancy.Proofs.Control.Turns

/-! The service in the hands of its signal. Whatever goes on before the signal is given and whatever
goes on after it, in any order and at any times, both loops come to their end. Of what one loop
does the other hears at most a change, and a loop that was stopped does not hear even that. -/

namespace Tenancy.Cluster

inductive Proceeds (s : Cluster) : Cluster → Prop
  | intro (now : Nat) (clock : Instant) {x : Task} (later : s.now ≤ now)
    (ready : x ∈ pending { s with now, clock }) : Proceeds s (step { s with now, clock } x)

structure Awaits (c s : Cluster) : Prop where
  course : Relation.ReflTransGen Proceeds c s
  launched : ∀ k, s.ofLoop false (·.launching) k = false

structure Over (s : Cluster) : Prop where
  orgs : (s.report OrganizationSpec).1 = .result (.ok ())
  deps : (s.report DeploymentSpec).1 = .result (.ok ())

/-- Whatever goes on, and in whatever order, it does not go on for ever; where nothing can go on any
more both loops have ended. -/
inductive Ends : Cluster → Prop
  | intro {s : Cluster} (stuck : (∀ t, ¬s.Proceeds t) → s.Over)
    (on : ∀ t, s.Proceeds t → Ends t) : Ends s

/-! ### What is seen of both loops -/

/-- Nobody disturbs the cluster, the signal can be given, no loop was replaced, and of both loops
the same holds. -/
structure Staffed (P : (S : Type) → [Hosted S] → Loop S → Prop) (s : Cluster) : Prop where
  calm : s.Calm
  signal : s.signal = true
  strays : s.deps.strays = []
  orgs : ∃ l, s.orgs.loop = some l ∧ P OrganizationSpec l
  deps : ∃ l, s.deps.loop = some l ∧ P DeploymentSpec l

/-- It does not matter what a loop hears and how it paces its passes. -/
structure Deaf (P : (S : Type) → [Hosted S] → Loop S → Prop) : Prop where
  own : ∀ {S : Type} [Hosted S] {l : Loop S} (x : Change S), P S l →
    P S { l with own := l.own.publish x }
  related : ∀ {l : Loop DeploymentSpec} (x : Change OrganizationSpec), P DeploymentSpec l →
    P DeploymentSpec { l with related := l.related.map (·.publish x) }
  pacer : ∀ {S : Type} [Hosted S] {l : Loop S} (pacer : Pacer), P S l → P S { l with pacer }

/-- Of what happens the loops notice no more than that. -/
def Remote (s t : Cluster) : Prop :=
  ∀ P : (S : Type) → [Hosted S] → Loop S → Prop, Deaf P → Staffed P s → Staffed P t

variable {P : (S : Type) → [Hosted S] → Loop S → Prop} {s t : Cluster}

theorem Remote.refl (s : Cluster) : Remote s s := fun _ _ h => h

theorem Sited.loop?_onLoop {S : Type} [Hosted S] (sited : Sited S) (s : Cluster)
    (f : Loop S → Loop S) : (s.onLoop f).loop? S = (s.loop? S).map f := by
  have seen := congrArg (Option.map Station.loop) (sited.onLoop s f)
  simpa [host?, station, Function.comp_def] using seen

theorem Sited.loop?_count {S : Type} [Hosted S] (sited : Sited S) (s : Cluster) (rank : Nat) :
    loop? S { s with rank } = s.loop? S := by
  have seen := congrArg (Option.map Station.loop) (sited.count s s.now s.clock s.created rank)
  simpa [host?, station, Function.comp_def] using seen

theorem ofLoop_orgs {α : Type} {l : Loop OrganizationSpec}
    (present : s.loop? OrganizationSpec = some l) (d : α) (f : {S : Type} → Loop S → α) :
    s.ofLoop d f .organization = f l := by
  unfold ofLoop ObjectKind.on
  dsimp only
  rw [present, Option.map_some, Option.getD_some]

theorem ofLoop_deps {α : Type} {l : Loop DeploymentSpec}
    (present : s.loop? DeploymentSpec = some l) (d : α) (f : {S : Type} → Loop S → α) :
    s.ofLoop d f .deployment = f l := by
  unfold ofLoop ObjectKind.on
  dsimp only
  rw [present, Option.map_some, Option.getD_some]

structure Manages (S : Type) [Hosted S] : Prop extends Sited S where
  present : ∀ (P : (S : Type) → [Hosted S] → Loop S → Prop) (s : Cluster), Staffed P s →
    ∃ l, s.loop? S = some l ∧ P S l
  keeps : ∀ (P : (S : Type) → [Hosted S] → Loop S → Prop) (s : Cluster) (f : Loop S → Loop S),
    Staffed P s → (∀ l, s.loop? S = some l → P S l → P S (f l)) → Staffed P (s.onLoop f)
  remote : ∀ (s : Cluster) (store : Store S) (x : Option (Change S)),
    Remote s ((s.setStore ⟨store, []⟩).publishAll x.toList)

theorem manages_orgs : Manages OrganizationSpec := by
  refine ⟨sited_orgs, fun P s h => h.orgs, fun P s f h keeps => ?_,
    fun s store x P deaf h => ?_⟩
  · obtain ⟨l, present, held⟩ := h.orgs
    refine ⟨⟨h.calm.deps, h.calm.orgs⟩, h.signal, h.strays, ⟨f l, ?_, keeps l present held⟩, h.deps⟩
    exact congrArg (Option.map f) present
  · obtain ⟨l, orgs, held⟩ := h.orgs
    obtain ⟨m, deps, held'⟩ := h.deps
    cases x with
    | none => exact ⟨⟨h.calm.deps, rfl⟩, h.signal, h.strays, h.orgs, h.deps⟩
    | some x =>
      exact ⟨⟨h.calm.deps, rfl⟩, h.signal, congrArg (List.map _) h.strays,
        ⟨_, congrArg (Option.map _) orgs, deaf.own x held⟩,
        ⟨_, congrArg (Option.map _) deps, deaf.related x held'⟩⟩

theorem manages_deps : Manages DeploymentSpec := by
  refine ⟨sited_deps, fun P s h => h.deps, fun P s f h keeps => ?_,
    fun s store x P deaf h => ?_⟩
  · obtain ⟨l, present, held⟩ := h.deps
    refine ⟨⟨h.calm.deps, h.calm.orgs⟩, h.signal, h.strays, h.orgs, ⟨f l, ?_, keeps l present held⟩⟩
    exact congrArg (Option.map f) present
  · obtain ⟨l, deps, held⟩ := h.deps
    cases x with
    | none => exact ⟨⟨rfl, h.calm.orgs⟩, h.signal, h.strays, h.orgs, h.deps⟩
    | some x =>
      exact ⟨⟨rfl, h.calm.orgs⟩, h.signal, congrArg (List.map _) h.strays, h.orgs,
        ⟨_, congrArg (Option.map _) deps, deaf.own x held⟩⟩

section

variable {S α : Type} [Hosted S] (manages : Manages S) (calm : s.Calm)
include manages

theorem Manages.call {run : Disturbed S → Called S α} {w : Written S α} (plain : s.Plain run w) :
    Remote s (s.call run).2 := by
  unfold Cluster.call
  rw [plain]
  exact manages.remote s w.store w.change

include calm

theorem Manages.list : Remote s (s.list S).2 :=
  manages.call (plain_call (manages.plan s calm) s.clock .list none
    fun st => ⟨.ok st.list, st, none⟩)

theorem Manages.answer (q : Request S) : Remote s (s.answer true q).2 := by
  have plan := manages.plan s calm
  have paced (f : Pacer → Pacer) : Remote s (s.paced S true f) := fun P deaf h =>
    manages.keeps P s _ h fun l _ held => deaf.pacer (f l.pacer) held
  cases q with
  | get key =>
    exact manages.call
      (plain_call plan s.clock .get (some key) fun st => ⟨st.get key, st, none⟩)
  | update o =>
    exact manages.call (plain_call plan s.clock .update (some o.key) (·.update o))
  | updateStatus o =>
    exact manages.call
      (plain_call plan s.clock .updateStatus (some o.key) (·.updateStatus o))
  | clock => exact .refl s
  | logic a =>
    cases a with
    | organizations => exact manages_orgs.list calm
    | nextDelay identity => exact paced fun p => (p.nextDelay identity).2
    | forget identity => exact paced (·.forget identity)
    | sleep | entered => exact .refl s

theorem Manages.asked (l : Loop S) (key : Key) (deadline : Nat) (q : Request S)
    (next : q.Answer → Pass S Outcome) :
    Remote s (s.asked l key deadline q next).2 ∧
      (s.asked l key deadline q next).1.job? ≠ none ∧
      (s.asked l key deadline q next).1.Nearer (.working key (.ask q next) deadline) := by
  have answered := manages.answer calm q
  cases q with
  | get | update | updateStatus | clock => exact ⟨answered, nofun, .goesOn next _⟩
  | logic a =>
    cases a with
    | organizations | forget | entered => exact ⟨answered, nofun, .goesOn next _⟩
    | sleep d =>
      unfold Cluster.asked
      dsimp only
      split
      · exact ⟨.refl s, nofun, .goesOn next _⟩
      · exact ⟨.refl s, nofun, .sleeps next _⟩
    | nextDelay identity =>
      unfold Cluster.asked
      dsimp only
      split
      · exact ⟨answered, nofun, .givesUp⟩
      · exact ⟨answered, nofun, .goesOn next _⟩

end

/-! ### Turns -/

def Heard (s : Cluster) (S : Type) [Hosted S] (m : Loop S) : Prop :=
  ∃ l own related pacer, s.loop? S = some l ∧ m = { l with own, related, pacer }

theorem deaf_heard (s : Cluster) : Deaf (Heard s) := by
  refine ⟨fun x => ?_, fun x => ?_, fun pacer => ?_⟩
  · rintro ⟨l, own, related, pacer, present, rfl⟩
    exact ⟨l, _, related, pacer, present, rfl⟩
  · rintro ⟨l, own, related, pacer, present, rfl⟩
    exact ⟨l, own, _, pacer, present, rfl⟩
  · rintro ⟨l, own, related, -, present, rfl⟩
    exact ⟨l, own, related, pacer, present, rfl⟩

theorem Staffed.heard (h : Staffed P s) : Staffed (Heard s) s := by
  obtain ⟨l, orgs, -⟩ := h.orgs
  obtain ⟨m, deps, -⟩ := h.deps
  exact ⟨h.calm, h.signal, h.strays, ⟨l, orgs, l, _, _, _, orgs, rfl⟩,
    ⟨m, deps, m, _, _, _, deps, rfl⟩⟩

theorem Staffed.count (h : Staffed P s) (now : Nat) (clock : Instant) (rank : Nat) :
    Staffed P { s with now, clock, rank } :=
  ⟨⟨h.calm.deps, h.calm.orgs⟩, h.signal, h.strays, h.orgs, h.deps⟩

section

variable {S : Type} [Hosted S] {l : Loop S} {id : Nat} {w : Worker S}

theorem onLoop_eq {f g : Loop S → Loop S} (present : s.loop? S = some l) (same : f l = g l) :
    s.onLoop f = s.onLoop g := by
  have present : (Hosted.side (S := S) s).loop = some l := present
  unfold onLoop onSide
  dsimp only
  rw [present, Option.map_some, Option.map_some, same]

/-- One worker of the loop goes on. Before that nothing happens that the loops would notice. -/
def Turns (s : Cluster) (S : Type) [Hosted S] (id : Nat) (t : Cluster) : Prop :=
  ∃ u m l', Remote s u ∧ loop? S u = some m ∧ m.Works id l' ∧ t = u.onLoop fun _ => l'

theorem Manages.turn (manages : Manages S) (h : Staffed P s) (present : s.loop? S = some l)
    (at_ : l.workers[id]? = some w) (able : l.Able s.now id w) :
    s.Turns S id (s.work S id) := by
  have here {l' : Loop S} (works : l.Works id l') :
      s.Turns S id (s.onLoop fun _ => l') := ⟨s, l, l', .refl s, present, works, rfl⟩
  have goesOn {w' : Worker S} (busy : w.job? ≠ none) (on : w'.job? ≠ none)
      (nearer : w'.Nearer w) :
      s.Turns S id (s.onLoop fun l : Loop S => l.setWorker id w') :=
    ⟨s, l, _, .refl s, present, .goes at_ busy on nearer, onLoop_eq present rfl⟩
  unfold Cluster.work
  rw [present]
  dsimp only
  rw [at_]
  cases able with
  | free => exact here (.looks at_ .free nofun)
  | rung rung =>
    dsimp only
    rw [if_pos rung]
    exact here (.looks at_ (.rung rung) nofun)
  | awake due =>
    dsimp only
    split
    · exact goesOn nofun nofun .wakes
    · rename_i asleep
      rw [if_pos (due.resolve_left asleep)]
      exact ⟨s, l, l.setWorker id (.working _ (expired l) _), .refl s, present,
        .goes at_ nofun nofun .overdue, onLoop_eq present rfl⟩
  | @working k p deadline =>
    cases p with
    | done r =>
      exact ⟨{ s with rank := s.rank + 1 }, l, _,
        fun P _ h => h.count s.now s.clock (s.rank + 1),
        (manages.loop?_count s (s.rank + 1)).trans present, .finishes s.now s.rank at_, rfl⟩
    | ask q next =>
      -- the answer may be a write, of which this loop hears too
      obtain ⟨remote, on, nearer⟩ := manages.asked h.calm l k deadline q next
      obtain ⟨m, present', l₀, own, related, pacer, present₀, same⟩ :=
        manages.present _ _ (remote _ (deaf_heard s) h.heard)
      cases present₀.symm.trans present
      have at_ : m.workers[id]? = some (.working k (.ask q next) deadline) := by
        rw [same]
        exact at_
      exact ⟨_, m, _, remote, present', .goes at_ nofun on nearer, onLoop_eq present' rfl⟩

theorem work_eq_self (present : s.loop? S = some l)
    (unable : ∀ w, l.workers[id]? = some w → ¬l.Able s.now id w) : s.work S id = s := by
  unfold Cluster.work
  rw [present]
  dsimp only
  cases at_ : l.workers[id]? with
  | none => rfl
  | some w =>
    have unable := unable w at_
    cases w with
    | ended => rfl
    | free => exact absurd .free unable
    | waiting => exact if_neg fun rung => unable (.rung rung)
    | working => exact absurd .working unable
    | asleep k p wake deadline =>
      dsimp only
      rw [if_neg fun due => unable (.awake (.inl due)),
        if_neg fun due => unable (.awake (.inr due))]

end

/-! ### Before the signal -/

def InService (s : Cluster) : Prop := Staffed (fun _ _ l => l.Serving) s

theorem deaf_serving : Deaf fun _ _ l => l.Serving :=
  ⟨fun _ h => h.of_same rfl rfl rfl rfl, fun _ h => h.of_same rfl rfl rfl rfl,
    fun _ h => h.of_same rfl rfl rfl rfl⟩

theorem remote_relate (calm : s.Calm) (l : Loop DeploymentSpec) : Remote s (s.relate l).2 := by
  have listed := manages_deps.list calm
  unfold relate
  split
  · split
    · exact .refl s
    · dsimp only
      split
      · split
        · rename_i lists
          rwa [lists] at listed
        · rename_i lists
          rwa [lists] at listed
      · exact .refl s
  · exact .refl s

theorem serving_relate {l : Loop DeploymentSpec} (h : l.Serving) (s : Cluster) :
    (s.relate l).1.Serving := by
  unfold relate
  split
  · split
    · exact h
    · dsimp only
      split
      · split <;> exact h.of_same rfl rfl rfl rfl
      · exact h.of_same rfl rfl rfl rfl
  · unfold Loop.enqueueConcerned
    split
    · exact h
    · exact h.of_same (Lobby.seats_add _ _) rfl rfl rfl

section

variable {S : Type} [Hosted S] (manages : Manages S)
include manages

theorem InService.launch (h : s.InService)
    (launching : ((s.loop? S).map (·.launching)).getD false = true) : InService (s.launch S) := by
  obtain ⟨answer, -, -⟩ := manages.toSited.list h.calm
  have remote := manages.list h.calm
  have after := remote _ deaf_serving h
  obtain ⟨m, present', l, own, related, pacer, present, same⟩ :=
    manages.present _ _ (remote _ (deaf_heard s) h.heard)
  rw [present, Option.map_some, Option.getD_some] at launching
  have state : m.state = .launching := by
    rw [same]
    exact Loop.state_of_launching launching
  unfold Cluster.launch
  dsimp only
  rw [answer]
  refine manages.keeps _ _ _ after fun m' present'' held => ?_
  cases present''.symm.trans present'
  exact held.launch state _

theorem InService.comeUp (h : s.InService)
    (launching : ((s.loop? S).map (·.launching)).getD false = true) : InService (s.comeUp S) := by
  rw [Cluster.comeUp, if_pos launching]
  exact h.launch manages launching

theorem InService.work (h : s.InService) (id : Nat) : InService (s.work S id) := by
  obtain ⟨l, present, -⟩ := manages.present _ _ h
  by_cases able : ∃ w, l.workers[id]? = some w ∧ l.Able s.now id w
  · obtain ⟨w, at_, able⟩ := able
    obtain ⟨u, m, l', remote, present', works, same⟩ := manages.turn h present at_ able
    rw [same]
    refine manages.keeps _ _ _ (remote _ deaf_serving h) fun m' present'' held => ?_
    cases present''.symm.trans present'
    exact held.works works
  · rw [work_eq_self present fun w at_ able' => able ⟨w, at_, able'⟩]
    exact h

end

theorem starting_of_pending {k : ObjectKind} (ready : Task.launch k ∈ s.pending) :
    s.ofLoop false (·.starting) k = true := by
  have found := by simpa [pending, ObjectKind.all] using ready
  exact found.2

theorem InService.starting_eq (h : s.InService) (k : ObjectKind) :
    s.ofLoop false (·.starting) k = s.ofLoop false (·.launching) k := by
  cases k with
  | organization =>
    obtain ⟨l, present, held⟩ := manages_orgs.present _ _ h
    rw [ofLoop_orgs present, ofLoop_orgs present, held.starting_eq]
  | deployment =>
    obtain ⟨l, present, held⟩ := manages_deps.present _ _ h
    rw [ofLoop_deps present, ofLoop_deps present, held.starting_eq]

theorem InService.step (h : s.InService) {x : Task} (ready : x ∈ s.pending) :
    InService (s.step x) := by
  cases x with
  | timer k t =>
    have fires {S : Type} {l : Loop S} (held : l.Serving) : (l.fire t).Serving :=
      held.of_same (Lobby.seats_add _ _) rfl rfl rfl
    cases k with
    | organization => exact manages_orgs.keeps _ _ _ h fun _ _ held => fires held
    | deployment => exact manages_deps.keeps _ _ _ h fun _ _ held => fires held
  | launch k =>
    have launching := starting_of_pending ready
    rw [h.starting_eq k] at launching
    cases k with
    | organization => exact h.comeUp manages_orgs launching
    | deployment => exact h.comeUp manages_deps launching
  | takeOwn k =>
    cases k with
    | organization => exact manages_orgs.keeps _ _ _ h fun _ _ held => held.readOwn
    | deployment => exact manages_deps.keeps _ _ _ h fun _ _ held => held.readOwn
  | takeStray id =>
    have same : s.takeStray id = s := by
      unfold takeStray
      rw [h.strays]
      rfl
    have step : s.step (.takeStray id) = s.takeStray id := rfl
    rw [step, same]
    exact h
  | takeRelated =>
    obtain ⟨l, present, held⟩ := h.deps
    have same : s.takeRelated =
        (s.relate l).2.onLoop fun _ : Loop DeploymentSpec => (s.relate l).1 := by
      unfold takeRelated
      rw [present]
    have step : s.step .takeRelated = s.takeRelated := rfl
    rw [step, same]
    exact manages_deps.keeps _ _ _ (remote_relate h.calm l _ deaf_serving h)
      fun _ _ _ => serving_relate held s
  | work k id =>
    cases k with
    | organization => exact h.work manages_orgs id
    | deployment => exact h.work manages_deps id

theorem InService.proceeds (h : s.InService) (on : s.Proceeds t) : t.InService := by
  cases on with
  | intro now clock later ready =>
    exact InService.step (h.count now clock s.rank) ready

theorem InService.course (h : s.InService) (course : Relation.ReflTransGen Proceeds s t) :
    t.InService := by
  induction course with
  | refl => exact h
  | tail _ on ih => exact ih.proceeds on

theorem pending_of_starting {k : ObjectKind}
    (starting : s.ofLoop false (·.starting) k = true) : Task.launch k ∈ s.pending := by
  cases k <;> simp [pending, ObjectKind.all, starting]

theorem Staffed.launching_eq (heard : Staffed (Heard s) t) (k : ObjectKind) :
    t.ofLoop false (·.launching) k = s.ofLoop false (·.launching) k := by
  cases k with
  | organization =>
    obtain ⟨m, after, l, _, _, _, before, rfl⟩ := manages_orgs.present _ _ heard
    rw [ofLoop_orgs after, ofLoop_orgs before]
    rfl
  | deployment =>
    obtain ⟨m, after, l, _, _, _, before, rfl⟩ := manages_deps.present _ _ heard
    rw [ofLoop_deps after, ofLoop_deps before]
    rfl

theorem InService.launched {S : Type} [Hosted S] (manages : Manages S) (h : s.InService)
    (launching : ((s.loop? S).map (·.launching)).getD false = true) :
    (((s.comeUp S).loop? S).map (·.launching)).getD false = false ∧
      ∃ u f, Staffed (Heard s) u ∧ s.comeUp S = u.onLoop (f : Loop S → Loop S) := by
  obtain ⟨answer, -, -⟩ := manages.toSited.list h.calm
  have heard := manages.list h.calm _ (deaf_heard s) h.heard
  obtain ⟨m, present, -⟩ := manages.present _ _ heard
  rw [Cluster.comeUp, if_pos launching]
  unfold Cluster.launch
  dsimp only
  rw [answer]
  refine ⟨?_, _, _, heard, rfl⟩
  rw [manages.loop?_onLoop, present]
  rfl

theorem InService.launches (h : s.InService) (k : ObjectKind) :
    ∃ t, Relation.ReflTransGen Proceeds s t ∧ t.ofLoop false (·.launching) k = false ∧
      ∀ k', k' ≠ k → t.ofLoop false (·.launching) k' = s.ofLoop false (·.launching) k' := by
  by_cases launching : s.ofLoop false (·.launching) k = true
  · have on : s.Proceeds (s.step (.launch k)) :=
      .intro s.now s.clock (Nat.le_refl _)
        (pending_of_starting ((h.starting_eq k).trans launching))
    refine ⟨_, .single on, ?_⟩
    cases k with
    | organization =>
      obtain ⟨done, u, f, heard, same⟩ := h.launched manages_orgs launching
      have apart : ofLoop (u.onLoop f) false (·.launching) .deployment =
          u.ofLoop false (·.launching) .deployment := rfl
      refine ⟨done, fun k' other => ?_⟩
      cases k' with
      | organization => exact absurd rfl other
      | deployment => exact (same ▸ apart).trans (heard.launching_eq .deployment)
    | deployment =>
      obtain ⟨done, u, f, heard, same⟩ := h.launched manages_deps launching
      have apart : ofLoop (u.onLoop f) false (·.launching) .organization =
          u.ofLoop false (·.launching) .organization := rfl
      refine ⟨done, fun k' other => ?_⟩
      cases k' with
      | organization => exact (same ▸ apart).trans (heard.launching_eq .organization)
      | deployment => exact absurd rfl other
  · exact ⟨s, .refl, Bool.eq_false_iff.2 launching, fun _ _ => rfl⟩

theorem InService.awaits (h : s.InService) : ∃ t, s.Awaits t := by
  obtain ⟨t, course, orgs, -⟩ := h.launches .organization
  obtain ⟨u, course', deps, others⟩ := (h.course course).launches .deployment
  refine ⟨u, course.trans course', fun k => ?_⟩
  cases k with
  | organization => exact (others .organization nofun).trans orgs
  | deployment => exact deps

/-! ### After the signal -/

def Closes (s : Cluster) : Prop := Staffed (fun _ _ l => l.Closing) s

theorem deaf_closing : Deaf fun _ _ l => l.Closing := by
  refine ⟨fun {S _ l} x h => ?_, fun {l} x h => ?_, fun pacer h => ?_⟩
  · have same : l.own.publish x = l.own := Feed.publish_of_inactive h.own.1 x
    rw [same]
    exact h
  · refine ⟨h.manned.of_same rfl rfl rfl, h.state, h.closed, h.rung, h.own, h.arrived,
      fun f hf => ?_, h.concerned⟩
    obtain ⟨g, hg, rfl⟩ := Option.map_eq_some_iff.1 hf
    obtain ⟨idle, done⟩ := h.related g hg
    rw [Feed.publish_of_inactive idle]
    exact ⟨idle, done⟩
  · exact ⟨h.manned.of_same rfl rfl rfl, h.state, h.closed, h.rung, h.own, h.arrived, h.related,
      h.concerned⟩

theorem InService.haltAll (h : s.InService)
    (launched : ∀ k, s.ofLoop false (·.launching) k = false) : Closes s.haltAll := by
  obtain ⟨l, orgs, held⟩ := manages_orgs.present _ _ h
  obtain ⟨m, deps, held'⟩ := manages_deps.present _ _ h
  exact ⟨⟨h.calm.deps, h.calm.orgs⟩, h.signal, h.strays,
    ⟨_, congrArg (Option.map _) orgs,
      held.halt ((ofLoop_orgs orgs false (·.launching)).symm.trans (launched .organization))⟩,
    ⟨_, congrArg (Option.map _) deps,
      held'.halt ((ofLoop_deps deps false (·.launching)).symm.trans (launched .deployment))⟩⟩

def crew (s : Cluster) (S : Type) [Hosted S] : Multiset (Worker S) :=
  (((s.loop? S).map (·.workers)).getD [] : List (Worker S))

def alarms (s : Cluster) (S : Type) [Hosted S] : List Timer :=
  ((s.loop? S).map (·.timers)).getD []

def load (s : Cluster) :
    (Multiset (Worker OrganizationSpec) × Multiset (Worker DeploymentSpec)) × Nat :=
  ((s.crew OrganizationSpec, s.crew DeploymentSpec),
    (s.alarms OrganizationSpec).length + (s.alarms DeploymentSpec).length)

def Lighter : (Multiset (Worker OrganizationSpec) × Multiset (Worker DeploymentSpec)) × Nat →
    (Multiset (Worker OrganizationSpec) × Multiset (Worker DeploymentSpec)) × Nat → Prop :=
  Prod.Lex (Prod.GameAdd (Relation.CutExpand Worker.Nearer) (Relation.CutExpand Worker.Nearer))
    (· < ·)

theorem lighter_wf : WellFounded Lighter :=
  WellFounded.prod_lex
    (Worker.nearer_wf.cutExpand.prod_gameAdd Worker.nearer_wf.cutExpand) Nat.lt_wfRel.wf

theorem cutExpand_set {α : Type*} {r : α → α → Prop} {xs : List α} {i : Nat} {x y : α}
    (at_ : xs[i]? = some x) (less : r y x) :
    Relation.CutExpand r (xs.set i y : Multiset α) (xs : Multiset α) := by
  induction xs generalizing i with
  | nil => cases at_
  | cons z zs ih =>
    cases i with
    | zero =>
      cases at_
      exact Relation.cutExpand_single_add less (zs : Multiset α)
    | succ i => exact (Relation.cutExpand_add_left {z}).2 (ih at_)

theorem mem_pending_work {k : ObjectKind} {id : Nat} :
    Task.work k id ∈ s.pending ↔ id ∈ s.ofLoop [] (·.busy s.now) k := by
  cases k <;> simp [pending, ObjectKind.all]

theorem behind_of_pending {k : ObjectKind} (ready : Task.takeOwn k ∈ s.pending) :
    s.ofLoop false (·.behind) k = true := by
  have found := by simpa [pending, ObjectKind.all] using ready
  exact found.2

theorem behindRelated_of_pending (ready : Task.takeRelated ∈ s.pending) :
    s.ofLoop false (·.behindRelated) .deployment = true := by
  simpa [pending, ObjectKind.all] using ready

theorem strays_of_pending {id : Nat} (ready : Task.takeStray id ∈ s.pending) :
    s.deps.strays ≠ [] := by
  intro none_
  simp [pending, ObjectKind.all, none_] at ready

section

variable {S : Type} [Hosted S] {l : Loop S}

theorem crew_eq (present : s.loop? S = some l) : s.crew S = (l.workers : Multiset (Worker S)) := by
  rw [crew, present]
  rfl

theorem Staffed.crew_eq (manages : Manages S) (h : Staffed (Heard s) t) :
    t.crew S = s.crew S := by
  obtain ⟨m, after, l, _, _, _, before, rfl⟩ := manages.present _ _ h
  rw [Cluster.crew_eq after, Cluster.crew_eq before]

theorem Closes.fire (manages : Manages S) (h : s.Closes) {t : Timer} (armed : t ∈ s.alarms S) :
    Closes (s.fire S t) ∧ (s.fire S t).crew S = s.crew S ∧
      ((s.fire S t).alarms S).length < (s.alarms S).length := by
  obtain ⟨l, present, held⟩ := manages.present _ _ h
  have fired : (s.fire S t).loop? S = some (l.fire t) := by
    rw [Cluster.fire, manages.loop?_onLoop, present, Option.map_some]
  refine ⟨manages.keeps _ _ _ h fun _ _ held => held.fire t, ?_, ?_⟩
  · rw [Cluster.crew_eq fired, Cluster.crew_eq present]
    rfl
  · rw [alarms, present, Option.map_some, Option.getD_some] at armed
    rw [alarms, alarms, fired, present]
    exact Loop.length_timers_fire armed

theorem Closes.work (manages : Manages S) (h : s.Closes) {id : Nat}
    (busy : id ∈ ((s.loop? S).map (·.busy s.now)).getD []) :
    Closes (s.work S id) ∧
    Relation.CutExpand Worker.Nearer ((s.work S id).crew S) (s.crew S) ∧
    ∃ u l', Staffed (Heard s) u ∧ s.work S id = u.onLoop fun _ : Loop S => l' := by
  obtain ⟨l, present, held⟩ := manages.present _ _ h
  rw [present, Option.map_some, Option.getD_some] at busy
  obtain ⟨w, at_, able⟩ := held.able busy
  obtain ⟨u, m, l', remote, present', works, same⟩ := manages.turn h present at_ able
  have heard := remote _ (deaf_heard s) h.heard
  have closes := remote _ deaf_closing h
  obtain ⟨m', present'', held'⟩ := manages.present _ _ closes
  cases present''.symm.trans present'
  obtain ⟨closing, v, v', before, nearer, after⟩ := held'.works works
  have turned : (u.onLoop fun _ : Loop S => l').loop? S = some l' := by
    rw [manages.loop?_onLoop, present', Option.map_some]
  rw [same]
  refine ⟨manages.keeps _ _ _ closes fun _ _ _ => closing, ?_, u, l', heard, rfl⟩
  rw [Cluster.crew_eq turned, after, ← heard.crew_eq manages, Cluster.crew_eq present']
  exact cutExpand_set before nearer

end

theorem Staffed.ofLoop_eq {α : Type} {a d : α} {f : {S : Type} → Loop S → α} (h : Staffed P s)
    (k : ObjectKind) (same : ∀ (S : Type) [Hosted S] (l : Loop S), P S l → f l = a) :
    s.ofLoop d f k = a := by
  cases k with
  | organization =>
    obtain ⟨l, present, held⟩ := manages_orgs.present _ _ h
    rw [ofLoop_orgs present, same _ l held]
  | deployment =>
    obtain ⟨l, present, held⟩ := manages_deps.present _ _ h
    rw [ofLoop_deps present, same _ l held]

theorem Closes.step (h : s.Closes) {x : Task} (ready : x ∈ s.pending) :
    Closes (s.step x) ∧ Lighter (s.step x).load s.load := by
  -- there is nothing to launch and nothing to read: only timers and workers go on
  cases x with
  | timer k t =>
    obtain ⟨armed, -⟩ := armed_of_pending ready
    cases k with
    | organization =>
      obtain ⟨closes, crew, fewer⟩ := h.fire manages_orgs armed
      have load : (s.step (.timer .organization t)).load =
          (((s.fire OrganizationSpec t).crew OrganizationSpec, s.crew DeploymentSpec),
            ((s.fire OrganizationSpec t).alarms OrganizationSpec).length +
              (s.alarms DeploymentSpec).length) := rfl
      rw [load, crew]
      exact ⟨closes, .right _ (Nat.add_lt_add_right fewer _)⟩
    | deployment =>
      obtain ⟨closes, crew, fewer⟩ := h.fire manages_deps armed
      have load : (s.step (.timer .deployment t)).load =
          ((s.crew OrganizationSpec, (s.fire DeploymentSpec t).crew DeploymentSpec),
            (s.alarms OrganizationSpec).length +
              ((s.fire DeploymentSpec t).alarms DeploymentSpec).length) := rfl
      rw [load, crew]
      exact ⟨closes, .right _ (Nat.add_lt_add_left fewer _)⟩
  | launch k =>
    have starting := starting_of_pending ready
    rw [h.ofLoop_eq k fun _ _ _ held => held.not_behind.1] at starting
    cases starting
  | takeOwn k =>
    have behind := behind_of_pending ready
    rw [h.ofLoop_eq k fun _ _ _ held => held.not_behind.2.1] at behind
    cases behind
  | takeStray id => exact absurd h.strays (strays_of_pending ready)
  | takeRelated =>
    have behind := behindRelated_of_pending ready
    rw [h.ofLoop_eq .deployment fun _ _ _ held => held.not_behind.2.2] at behind
    cases behind
  | work k id =>
    have busy := mem_pending_work.1 ready
    cases k with
    | organization =>
      obtain ⟨closes, cut, u, l', heard, same⟩ := h.work manages_orgs busy
      refine ⟨closes, .left _ _ ?_⟩
      have others : (s.work OrganizationSpec id).crew DeploymentSpec = s.crew DeploymentSpec := by
        have apart : crew (u.onLoop fun _ => l') DeploymentSpec = u.crew DeploymentSpec := rfl
        rw [same, apart]
        exact heard.crew_eq manages_deps
      have step : s.step (.work .organization id) = s.work OrganizationSpec id := rfl
      rw [step, others]
      exact .fst cut
    | deployment =>
      obtain ⟨closes, cut, u, l', heard, same⟩ := h.work manages_deps busy
      refine ⟨closes, .left _ _ ?_⟩
      have others : (s.work DeploymentSpec id).crew OrganizationSpec =
          s.crew OrganizationSpec := by
        have apart : crew (u.onLoop fun _ => l') OrganizationSpec = u.crew OrganizationSpec := rfl
        rw [same, apart]
        exact heard.crew_eq manages_orgs
      have step : s.step (.work .deployment id) = s.work DeploymentSpec id := rfl
      rw [step, others]
      exact .snd cut

theorem Closes.proceeds (h : s.Closes) (on : s.Proceeds t) : t.Closes ∧ Lighter t.load s.load := by
  cases on with
  | intro now clock later ready => exact Closes.step (h.count now clock s.rank) ready

theorem Closes.report (h : s.Closes) (stuck : ∀ t, ¬s.Proceeds t) {S : Type} [Hosted S]
    (manages : Manages S) (k : ObjectKind) (sees : ∀ now, ofLoop { s with now } [] (·.busy now) k =
      ((s.loop? S).map (·.busy now)).getD []) : (s.report S).1 = .result (.ok ()) := by
  obtain ⟨l, present, held⟩ := manages.present _ _ h
  have idle : l.idle = true := by
    by_contra going
    obtain ⟨i, now, later, busy⟩ := held.goes_on s.now (Bool.eq_false_iff.2 going)
    have ready : Task.work k i ∈ pending { s with now } := by
      rw [mem_pending_work, sees, present]
      exact busy
    exact stuck _ (.intro now s.clock later ready)
  unfold Cluster.report Loop.report
  rw [present]
  dsimp only
  rw [held.state]
  dsimp only
  rw [if_pos idle]

theorem Closes.ends (h : s.Closes) : s.Ends := by
  -- by induction on what is left to be done
  have wf := InvImage.wf load lighter_wf
  induction s using wf.induction with
  | h s ih =>
    refine ⟨fun stuck => ⟨h.report stuck manages_orgs .organization fun _ => rfl,
      h.report stuck manages_deps .deployment fun _ => rfl⟩, fun t on => ?_⟩
    obtain ⟨closes, lighter⟩ := h.proceeds on
    exact ih t lighter closes

/-- Whenever the signal is given, the loops come to their end. -/
theorem InService.ends (h : s.InService) (awaits : s.Awaits t) : t.stop.2.Ends := by
  have waiting := h.course awaits.course
  unfold stop
  rw [if_pos waiting.signal]
  exact (waiting.haltAll awaits.launched).ends

end Tenancy.Cluster
