import Tenancy.Proofs.Control.Rest
import Tenancy.Proofs.Control.Station

/-! The loops of a cluster that nobody disturbs. For the loop of either kind every move of the
cluster is one step at its store. Of what the other kind does nothing is seen there but the changes
that it makes known and the timers that it sets. -/

namespace Tenancy

def Deed.first {S : Type} : List Key → Deed S
  | [] => .rest
  | k :: _ => .added [k]

namespace Cluster

def station {S : Type} [Hosted S] (s : Cluster) (l : Loop S) : Station S :=
  ⟨s.store S, l, s.now, s.rank⟩

def host? (S : Type) [Hosted S] (s : Cluster) : Option (Station S) := (s.loop? S).map s.station

section

variable {S : Type} [Hosted S] {s t u : Cluster} {l : Loop S}

theorem host?_eq (present : s.loop? S = some l) : s.host? S = some (s.station l) := by
  rw [host?, present, Option.map_some]

/-- If there is a loop, what happens is one step of it. -/
def Advances (s t : Cluster) (d : Loop S → Deed S) : Prop :=
  ∀ l, s.loop? S = some l → ∃ c, t.host? S = some c ∧ Station.Step (s.station l) (d l) c

theorem advances_of_vacant {d : Loop S → Deed S} (vacant : (s.loop? S).isNone = true) :
    Advances s t d := by
  intro l present
  rw [present] at vacant
  cases vacant

/-- Nothing is seen at the loop but what it hears of others. -/
def Aside (S : Type) [Hosted S] (s t : Cluster) : Prop :=
  ∀ c, s.host? S = some c → ∃ related concerned rank, c.rank ≤ rank ∧
    t.host? S = some ⟨c.store, { c.loop with related, concerned }, c.now, rank⟩

theorem Aside.of_eq (h : t.host? S = s.host? S) : Aside S s t := fun c hc =>
  ⟨c.loop.related, c.loop.concerned, c.rank, Nat.le_refl _, h.trans hc⟩

theorem Aside.trans (h : Aside S s t) (h' : Aside S t u) : Aside S s u := by
  intro c hc
  obtain ⟨related, concerned, rank, le, ht⟩ := h c hc
  obtain ⟨related', concerned', rank', le', hu⟩ := h' _ ht
  exact ⟨related', concerned', rank', Nat.le_trans le le', hu⟩

theorem Aside.advances (h : Aside S s t) : Advances s t fun _ : Loop S => .rest := by
  intro l present
  obtain ⟨related, concerned, rank, le, ht⟩ := h _ (host?_eq present)
  exact ⟨_, ht, .elapse related concerned (Nat.le_refl _) le⟩

structure Sited (S : Type) [Hosted S] : Prop where
  plan : ∀ s : Cluster, s.Calm → (Hosted.side (S := S) s).store.plan = []
  onLoop : ∀ (s : Cluster) (f : Loop S → Loop S),
    (s.onLoop f).host? S = (s.host? S).map fun c => { c with loop := f c.loop }
  announce : ∀ (s : Cluster) (store : Store S) (x : Option (Change S)), s.Calm →
    ((s.setStore ⟨store, []⟩).publishAll x.toList).Calm ∧
    ((s.setStore ⟨store, []⟩).publishAll x.toList).host? S =
      (s.host? S).map fun c => { c with store, loop := c.loop.hearOwn x }
  count : ∀ (s : Cluster) (now : Nat) (clock : Instant) (created rank : Nat),
    host? S { s with now, clock, created, rank } = (s.host? S).map ({ · with now, rank })

structure Apart (S S' : Type) [Hosted S] [Hosted S'] : Prop where
  onLoop : ∀ (s : Cluster) (f : Loop S' → Loop S'), Aside S s (s.onLoop f)
  announce : ∀ (s : Cluster) (store : Store S') (x : Option (Change S')),
    Aside S s ((s.setStore ⟨store, []⟩).publishAll x.toList)
  addLoop : ∀ (s : Cluster) (withRelated : Bool), Aside S s (s.addLoop S' false withRelated)
  count : ∀ (s : Cluster) (created rank : Nat), s.rank ≤ rank →
    Aside S s { s with created, rank }
  organizations : ∀ s : Cluster, s.Calm → Aside S s (s.list OrganizationSpec).2

end

theorem sited_orgs : Sited OrganizationSpec := by
  refine ⟨fun s h => h.orgs, fun s f => ?_, fun s new x h => ⟨?_, ?_⟩, fun s _ _ _ _ => ?_⟩
  · obtain ⟨⟨_, _, _, loop, _⟩, _⟩ := s
    cases loop <;> rfl
  · cases x <;> exact ⟨h.deps, rfl⟩
  · obtain ⟨⟨_, _, _, loop, _⟩, _⟩ := s
    cases loop <;> cases x <;> rfl
  · obtain ⟨⟨_, _, _, loop, _⟩, _⟩ := s
    cases loop <;> rfl

theorem sited_deps : Sited DeploymentSpec := by
  refine ⟨fun s h => h.deps, fun s f => ?_, fun s new x h => ⟨?_, ?_⟩, fun s _ _ _ _ => ?_⟩
  · obtain ⟨_, ⟨_, _, _, loop, _⟩, _⟩ := s
    cases loop <;> rfl
  · cases x <;> exact ⟨rfl, h.orgs⟩
  · obtain ⟨_, ⟨_, _, _, loop, _⟩, _⟩ := s
    cases loop <;> cases x <;> rfl
  · obtain ⟨_, ⟨_, _, _, loop, _⟩, _⟩ := s
    cases loop <;> rfl

section

variable {S α : Type} [Hosted S] {s t : Cluster} {c : Station S} (sited : Sited S) (calm : s.Calm)
include sited calm

theorem Sited.call {run : Disturbed S → Called S α} {w : Written S α} (plain : s.Plain run w) :
    (s.call run).1 = w.answer ∧ (s.call run).2.Calm ∧ (s.call run).2.host? S =
      (s.host? S).map fun c => { c with store := w.store, loop := c.loop.hearOwn w.change } := by
  unfold Cluster.call
  rw [plain]
  exact ⟨rfl, sited.announce s w.store w.change calm⟩

theorem Sited.read {run : Disturbed S → Called S α} {answer : Except StoreError α}
    (plain : s.Plain run ⟨answer, s.store S, none⟩) :
    (s.call run).1 = answer ∧ (s.call run).2.Calm ∧ (s.call run).2.host? S = s.host? S := by
  obtain ⟨answered, calm', same⟩ := sited.call calm plain
  refine ⟨answered, calm', same.trans ?_⟩
  unfold host?
  cases s.loop? S <;> rfl

theorem Sited.get (key : Key) : (s.get S key).1 = (s.store S).get key ∧
    (s.get S key).2.host? S = s.host? S := by
  obtain ⟨answered, -, same⟩ := sited.read calm (plain_call (sited.plan s calm) s.clock .get
    (some key) fun st => ⟨st.get key, st, none⟩)
  exact ⟨answered, same⟩

theorem Sited.list : (s.list S).1 = .ok (s.store S).list ∧ (s.list S).2.Calm ∧
    (s.list S).2.host? S = s.host? S :=
  sited.read calm (plain_call (sited.plan s calm) s.clock .list none
    fun st => ⟨.ok st.list, st, none⟩)

end

theorem Aside.call {S S' α : Type} [Hosted S] [Hosted S'] {s : Cluster}
    (announce : ∀ (store : Store S') (x : Option (Change S')),
      Aside S s ((s.setStore ⟨store, []⟩).publishAll x.toList))
    {run : Disturbed S' → Called S' α} {w : Written S' α} (plain : s.Plain run w) :
    Aside S s (s.call run).2 := by
  unfold Cluster.call
  rw [plain]
  exact announce w.store w.change

theorem Sited.created {S : Type} [Hosted S] (sited : Sited S) (s : Cluster) (created : Nat) :
    host? S { s with created } = s.host? S := by
  refine (sited.count s s.now s.clock created s.rank).trans ?_
  unfold host?
  cases s.loop? S <;> rfl

theorem Sited.aside_count {S : Type} [Hosted S] (sited : Sited S) (s : Cluster)
    (created : Nat) {rank : Nat} (le : s.rank ≤ rank) : Aside S s { s with created, rank } := by
  have same := sited.count s s.now s.clock created rank
  intro c hc
  refine ⟨c.loop.related, c.loop.concerned, rank, ?_, ?_⟩
  · unfold host? at hc
    obtain ⟨l, -, rfl⟩ := Option.map_eq_some_iff.1 hc
    exact le
  · rw [same, hc]
    unfold host? at hc
    obtain ⟨l, -, rfl⟩ := Option.map_eq_some_iff.1 hc
    rfl

theorem Calm.lists_orgs {s : Cluster} (calm : s.Calm) :
    (s.list DeploymentSpec).2.host? OrganizationSpec = s.host? OrganizationSpec := by
  have plain : s.Plain (S := DeploymentSpec) (·.list s.clock)
      ⟨.ok (s.store DeploymentSpec).list, s.store DeploymentSpec, none⟩ :=
    plain_call calm.deps s.clock .list none fun st => ⟨.ok st.list, st, none⟩
  unfold Cluster.list Cluster.call
  rw [plain]
  rfl

theorem Calm.lists_deps {s : Cluster} (calm : s.Calm) :
    (s.list OrganizationSpec).2.host? DeploymentSpec = s.host? DeploymentSpec := by
  have plain : s.Plain (S := OrganizationSpec) (·.list s.clock)
      ⟨.ok (s.store OrganizationSpec).list, s.store OrganizationSpec, none⟩ :=
    plain_call calm.orgs s.clock .list none fun st => ⟨.ok st.list, st, none⟩
  unfold Cluster.list Cluster.call
  rw [plain]
  rfl

theorem apart_orgs : Apart OrganizationSpec DeploymentSpec := by
  refine ⟨fun s f => .of_eq rfl, fun s store x => .of_eq ?_, fun s _ => .of_eq rfl,
    fun s created rank => sited_orgs.aside_count s created, fun s h => ?_⟩
  · cases x <;> rfl
  · exact .of_eq (sited_orgs.list h).2.2

theorem apart_deps : Apart DeploymentSpec OrganizationSpec := by
  have announce (s : Cluster) (new : Store OrganizationSpec)
      (x : Option (Change OrganizationSpec)) :
      Aside DeploymentSpec s ((s.setStore ⟨new, []⟩).publishAll x.toList) := by
    obtain ⟨_, ⟨_, _, _, loop, _⟩, _⟩ := s
    cases loop with
    | none =>
      intro c hc
      cases hc
    | some l =>
      rintro _ ⟨⟩
      cases x with
      | none => exact ⟨l.related, l.concerned, _, Nat.le_refl _, rfl⟩
      | some x => exact ⟨l.related.map (·.publish x), l.concerned, _, Nat.le_refl _, rfl⟩
  refine ⟨fun s f => .of_eq rfl, announce, fun s _ => .of_eq rfl,
    fun s created rank => sited_deps.aside_count s created, fun s h => ?_⟩
  exact .of_eq h.lists_deps

/-! ### What another kind does -/

section

variable {S S' : Type} [Hosted S] [Hosted S'] {s : Cluster} (apart : Apart S S')
  (sited : Sited S') (calm : s.Calm)
include apart

theorem Apart.rest (f : Loop S' → Loop S') {t : Cluster} (h : Aside S s t) :
    Aside S s (t.onLoop f) :=
  h.trans (apart.onLoop t f)

include sited calm

theorem Apart.serve (c : Call S') : Aside S s (s.serve c) := by
  have plan := sited.plan s calm
  cases c with
  | create o =>
    have created : Aside S s (s.write fun st => st.create s.uid o).2 :=
      .call (apart.announce s) (plain_write plan (·.create s.uid o))
    unfold Cluster.serve create
    dsimp only
    split
    · exact created.trans (apart.count _ _ _ (Nat.le_refl _))
    · exact created
  | delete key => exact .call (apart.announce s) (plain_write plan (·.delete s.clock key))
  | update o =>
    exact .call (apart.announce s) (plain_call plan s.clock .update (some o.key) (·.update o))
  | updateStatus o =>
    exact .call (apart.announce s)
      (plain_call plan s.clock .updateStatus (some o.key) (·.updateStatus o))

theorem Apart.answer (q : Request S') : Aside S s (s.answer true q).2 := by
  have plan := sited.plan s calm
  cases q with
  | get key =>
    exact .call (apart.announce s)
      (plain_call plan s.clock .get (some key) fun st => ⟨st.get key, st, none⟩)
  | update o => exact apart.serve sited calm (.update o)
  | updateStatus o => exact apart.serve sited calm (.updateStatus o)
  | clock => exact .of_eq rfl
  | logic a =>
    cases a with
    | organizations => exact apart.organizations s calm
    | nextDelay | forget => exact apart.onLoop s _
    | sleep | entered => exact .of_eq rfl

theorem Apart.asked (l : Loop S') (key : Key) (deadline : Nat) (q : Request S')
    (next : q.Answer → Pass S' Outcome) : Aside S s (s.asked l key deadline q next).2 := by
  have answered := apart.answer sited calm q
  cases q with
  | get | update | updateStatus | clock => exact answered
  | logic a =>
    cases a with
    | sleep d =>
      unfold Cluster.asked
      dsimp only
      split <;> exact .of_eq rfl
    | organizations | nextDelay | forget | entered => exact answered

theorem Apart.work (id : Nat) : Aside S s (s.work S' id) := by
  have stays : Aside S s s := .of_eq rfl
  have counted : Aside S s { s with rank := s.rank + 1 } :=
    apart.count s s.created (s.rank + 1) (Nat.le_succ _)
  unfold Cluster.work
  split
  · exact stays
  · split
    · exact stays
    · exact stays
    · exact apart.rest _ stays
    · split
      · exact apart.rest _ stays
      · exact stays
    · split
      · exact apart.rest _ stays
      · split
        · exact apart.rest _ stays
        · exact stays
    · exact apart.rest _ counted
    · exact apart.rest _ (apart.asked sited calm _ _ _ _ _)

theorem Apart.list : Aside S s (s.list S').2 :=
  .call (apart.announce s) (plain_call (sited.plan s calm) s.clock .list none
    fun st => ⟨.ok st.list, st, none⟩)

theorem Apart.comeUp : Aside S s (s.comeUp S') := by
  unfold Cluster.comeUp
  split
  · exact apart.rest _ (apart.list sited calm)
  · exact apart.rest _ (.of_eq rfl)

end

/-! ### What the own kind does -/

def raised {S : Type} [Hosted S] (s : Cluster) (l : Loop S) : Deed S :=
  if l.launching then .added ((s.store S).list.map (·.key)) else .rest

def deedAt {S : Type} (l : Loop S) (id : Nat) : Deed S :=
  match l.workers[id]? with
  | some .free => (l.lobby.pop id).1.deed S
  | some .waiting => if l.rung id then (l.lobby.resume id).1.deed S else .rest
  | some (.working k (.ask q _) _) => .asked k q
  | some (.working k (.done r) _) => .ended k r
  | some (.asleep ..) | some .ended | none => .rest

section

variable {S : Type} [Hosted S] {s t : Cluster} {l : Loop S} {id deadline : Nat} {key : Key}
  (sited : Sited S)
include sited

theorem Sited.turn {f : Loop S → Loop S} {d : Loop S → Deed S}
    (step : ∀ l, s.loop? S = some l →
      Station.Step (s.station l) (d l) { s.station l with loop := f l }) :
    Advances s (s.onLoop f) d := by
  intro l present
  refine ⟨_, ?_, step l present⟩
  rw [sited.onLoop, host?_eq present]
  rfl

theorem Sited.written (calm : s.Calm) (present : s.loop? S = some l) {α : Type} {v : Write S}
    {run : Disturbed S → Called S α} {w : Written S α} (plain : s.Plain run w)
    (store : w.store = ((s.store S).write v).store)
    (change : w.change = ((s.store S).write v).change) :
    (s.call run).1 = w.answer ∧ (s.call run).2.host? S = some ((s.station l).write v) := by
  obtain ⟨answer, -, after⟩ := sited.call calm plain
  rw [host?_eq present, Option.map_some, store, change] at after
  exact ⟨answer, after⟩

theorem Sited.serve (calm : s.Calm) (c : Call S) :
    Advances s (s.serve c) fun _ : Loop S => .client (s.written c) := by
  have plan := sited.plan s calm
  intro l present
  cases c with
  | create o =>
    obtain ⟨-, after⟩ :=
      sited.written calm present (v := s.written (.create o)) (plain_write plan (·.create s.uid o))
        rfl rfl
    unfold Cluster.serve create
    dsimp only
    split
    · exact ⟨_, (sited.created _ _).trans after, .client _⟩
    · exact ⟨_, after, .client _⟩
  | delete key =>
    obtain ⟨-, after⟩ :=
      sited.written calm present (v := s.written (.delete key))
        (plain_write plan (·.delete s.clock key)) rfl rfl
    exact ⟨_, after, .client _⟩
  | update o =>
    obtain ⟨-, after⟩ := sited.written calm present (v := .update o)
      (plain_call plan s.clock .update (some o.key) (·.update o)) rfl rfl
    exact ⟨_, after, .client _⟩
  | updateStatus o =>
    obtain ⟨-, after⟩ := sited.written calm present (v := .updateStatus o)
      (plain_call plan s.clock .updateStatus (some o.key) (·.updateStatus o)) rfl rfl
    exact ⟨_, after, .client _⟩

theorem Sited.answer (calm : s.Calm) (present : s.loop? S = some l)
    (lists : (s.list OrganizationSpec).2.host? S = s.host? S) (q : Request S) :
    ∃ c, (s.answer true q).2.host? S = some c ∧
      Station.Answered (s.station l) q (s.answer true q).1 c := by
  have plan := sited.plan s calm
  have still := host?_eq present
  cases q with
  | get key =>
    obtain ⟨answer, after⟩ := sited.get calm key
    have answered : Station.Answered (s.station l) (.get key) (s.get S key).1 (s.station l) := by
      rw [answer]
      exact .get key
    exact ⟨_, after.trans still, answered⟩
  | update o =>
    obtain ⟨answer, after⟩ := sited.written calm present (v := .update o)
      (plain_call plan s.clock .update (some o.key) (·.update o)) rfl rfl
    have answer : (s.update o).1 = ((s.store S).update o).answer := answer
    exact ⟨_, after, answer ▸ .update o⟩
  | updateStatus o =>
    obtain ⟨answer, after⟩ := sited.written calm present (v := .updateStatus o)
      (plain_call plan s.clock .updateStatus (some o.key) (·.updateStatus o)) rfl rfl
    have answer : (s.updateStatus o).1 = ((s.store S).updateStatus o).answer := answer
    exact ⟨_, after, answer ▸ .updateStatus o⟩
  | clock => exact ⟨_, still, .clock s.clock⟩
  | logic a =>
    have pacer : s.pacer S true = l.pacer := by
      have present : (Hosted.side (S := S) s).loop = some l := present
      unfold Cluster.pacer
      dsimp only
      rw [if_pos rfl, present]
      rfl
    have paced (f : Pacer → Pacer) :
        (s.paced S true f).host? S = some ((s.station l).paced (f l.pacer)) := by
      have after := sited.onLoop s fun l => { l with pacer := f l.pacer }
      rwa [still] at after
    cases a with
    | organizations => exact ⟨_, lists.trans still, .organizations _⟩
    | nextDelay identity =>
      refine ⟨_, paced fun p => (p.nextDelay identity).2, ?_⟩
      dsimp only [Cluster.answer]
      rw [pacer]
      exact .nextDelay identity
    | forget identity => exact ⟨_, paced (·.forget identity), .forget identity⟩
    | sleep d => exact ⟨_, still, .sleep d⟩
    | entered hook => exact ⟨_, still, .entered hook⟩

theorem Sited.follow (calm : s.Calm) (present : s.loop? S = some l)
    (lists : (s.list OrganizationSpec).2.host? S = s.host? S) {q : Request S}
    {next : q.Answer → Pass S Outcome} {w : Worker S} {p : Pass S Outcome}
    (at_ : l.workers[id]? = some (.working key (.ask q next) deadline))
    (goesOn : p = next (s.answer true q).1 ∨ p = expired l) (job : w.job? = some (key, p)) :
    ∃ c, ((s.answer true q).2.onLoop fun l : Loop S => l.setWorker id w).host? S = some c ∧
      Station.Step (s.station l) (.asked key q) c := by
  obtain ⟨c, after, answered⟩ := sited.answer calm present lists q
  refine ⟨c.setWorker id w, ?_, .ask at_ answered goesOn job⟩
  rw [sited.onLoop, after]
  rfl

theorem Sited.asked (calm : s.Calm) (present : s.loop? S = some l)
    (lists : (s.list OrganizationSpec).2.host? S = s.host? S) {q : Request S}
    {next : q.Answer → Pass S Outcome}
    (at_ : l.workers[id]? = some (.working key (.ask q next) deadline)) :
    ∃ c, ((s.asked l key deadline q next).2.onLoop fun m : Loop S =>
        m.setWorker id (s.asked l key deadline q next).1).host? S = some c ∧
      Station.Step (s.station l) (.asked key q) c := by
  cases q with
  | get | update | updateStatus | clock =>
    exact sited.follow calm present lists at_ (.inl rfl) rfl
  | logic a =>
    cases a with
    | organizations | forget | entered =>
      exact sited.follow calm present lists at_ (.inl rfl) rfl
    | sleep d =>
      unfold Cluster.asked
      dsimp only
      split <;> exact sited.follow calm present lists at_ (.inl rfl) rfl
    | nextDelay identity =>
      unfold Cluster.asked
      dsimp only
      split
      · exact sited.follow calm present lists at_ (.inr rfl) rfl
      · exact sited.follow calm present lists at_ (.inl rfl) rfl

theorem Sited.work (calm : s.Calm) (lists : (s.list OrganizationSpec).2.host? S = s.host? S)
    (id : Nat) : Advances s (s.work S id) fun l : Loop S => deedAt l id := by
  intro l present
  have still := host?_eq present
  have stays : ∃ c, s.host? S = some c ∧ Station.Step (s.station l) .rest c :=
    ⟨_, still, .elapse l.related l.concerned (Nat.le_refl _) (Nat.le_refl _)⟩
  have turned (f : Loop S → Loop S) :
      (s.onLoop f).host? S = some { s.station l with loop := f l } := by
    rw [sited.onLoop, still]
    rfl
  unfold Cluster.work deedAt
  rw [present]
  dsimp only
  cases at_ : l.workers[id]? with
  | none => exact stays
  | some w =>
    cases w with
    | ended => exact stays
    | free => exact ⟨_, turned _, .look at_ .free⟩
    | waiting =>
      dsimp only
      split
      · rename_i rung
        exact ⟨_, turned _, .look at_ (.rung rung)⟩
      · exact stays
    | asleep k rest wake deadline =>
      dsimp only
      split
      · exact ⟨_, turned _, .wake at_ rfl⟩
      · split
        · exact ⟨_, turned _, .expire at_ rfl⟩
        · exact stays
    | working k p deadline =>
      cases p with
      | done r =>
        refine ⟨_, ?_, .finish at_⟩
        have counted := sited.count s s.now s.clock s.created (s.rank + 1)
        rw [still] at counted
        rw [sited.onLoop, counted]
        rfl
      | ask q next => exact sited.asked calm present lists at_

theorem Sited.giveUp (id : Nat) : Advances s (s.giveUp S id) fun _ : Loop S => .rest := by
  have stays : Advances s s fun _ : Loop S => .rest := Aside.advances (.of_eq rfl)
  unfold Cluster.giveUp
  split
  · exact stays
  · rename_i l present
    split
    · rename_i at_
      split
      · refine sited.turn fun l' present' => ?_
        cases present.symm.trans present'
        exact .expire at_ rfl
      · exact stays
    · exact stays

theorem Sited.fire {x : Timer} (armed : x ∈ ((s.loop? S).map (·.timers)).getD [])
    (due : x.due ≤ s.now) : Advances s (s.fire S x) fun _ : Loop S => .fired x := by
  refine sited.turn fun l present => ?_
  rw [present] at armed
  exact .fire armed due

theorem Sited.tick {now : Nat} (clock : Instant) (later : s.now ≤ now) :
    Advances s { s with now, clock } fun _ : Loop S => .rest := by
  intro l present
  have counted := sited.count s now clock s.created s.rank
  rw [host?_eq present] at counted
  exact ⟨_, counted, .elapse l.related l.concerned later (Nat.le_refl _)⟩

theorem Sited.launch (calm : s.Calm) (present : s.loop? S = some l)
    (state : l.state = .launching) :
    ∃ c, (s.launch S).host? S = some c ∧
      Station.Step (s.station l) (.added ((s.store S).list.map (·.key))) c := by
  obtain ⟨answer, -, after⟩ := sited.list calm
  refine ⟨_, ?_, .launch state⟩
  unfold Cluster.launch
  dsimp only
  rw [sited.onLoop, after, host?_eq present, answer]
  rfl

theorem Sited.comeUp (calm : s.Calm) :
    Advances s (s.comeUp S) fun l : Loop S => s.raised l := by
  intro l present
  rw [comeUp_eq present]
  cases launching : l.launching with
  | true =>
    simp only [raised, launching, if_true]
    exact sited.launch calm present (Loop.state_of_launching launching)
  | false =>
    simp only [raised, launching, Bool.false_eq_true, if_false]
    refine ⟨_, ?_, .halt⟩
    unfold Cluster.halt
    rw [sited.onLoop, host?_eq present]
    rfl

theorem Sited.takeOwn : Advances s (s.takeOwn S) fun l : Loop S => .first l.arrived := by
  refine sited.turn fun l _ => ?_
  unfold Loop.readOwn
  cases waiting : l.arrived with
  | nil => exact .takeOwn waiting
  | cons k ks => exact .arrive waiting

end

/-! ### Moves -/

section

variable {s : Cluster}

theorem host?_relate {S : Type} [Hosted S]
    (lists : (s.list DeploymentSpec).2.host? S = s.host? S) (l : Loop DeploymentSpec) :
    (s.relate l).2.host? S = s.host? S := by
  unfold Cluster.relate
  split
  · split
    · rfl
    · dsimp only
      split
      · split
        · rename_i listed
          rwa [listed] at lists
        · rename_i listed
          rwa [listed] at lists
      · rfl
  · rfl

theorem aside_takeStray {S : Type} [Hosted S]
    (lists : (s.list DeploymentSpec).2.host? S = s.host? S)
    (unseen : ∀ (t : Cluster) (strays : List (Loop DeploymentSpec)),
      host? S { t with deps := { t.deps with strays } } = t.host? S) (id : Nat) :
    Aside S s (s.takeStray id) := by
  unfold Cluster.takeStray
  split
  · exact .of_eq rfl
  · exact .of_eq ((unseen _ _).trans (host?_relate lists _))

theorem step_relate (s : Cluster) (l : Loop DeploymentSpec) :
    Station.Step (s.station l) (.first l.concerned)
      { s.station l with loop := (s.relate l).1 } := by
  have turn {l' : Loop DeploymentSpec} (related : Option (Feed OrganizationSpec))
      (concerned : List Key) (same : l' = { l with related, concerned }) :
      Station.Step (s.station l) .rest { s.station l with loop := l' } := by
    rw [same]
    exact .elapse related concerned (Nat.le_refl _) (Nat.le_refl _)
  unfold Cluster.relate
  cases waiting : l.concerned with
  | nil =>
    simp only [List.isEmpty_nil, if_true]
    split
    · exact turn l.related l.concerned rfl
    · rename_i c related _
      split
      · split
        · exact turn (some related) _ rfl
        · exact turn (some related) [] rfl
      · exact turn (some related) [] rfl
  | cons k ks =>
    simp only [List.isEmpty_cons, if_false, Bool.false_eq_true]
    unfold Loop.enqueueConcerned
    rw [waiting]
    exact .concern l.related ks k

theorem advances_takeRelated (calm : s.Calm) :
    Advances s s.takeRelated fun l : Loop DeploymentSpec => .first l.concerned := by
  intro l present
  have seen := host?_relate (sited_deps.list calm).2.2 l
  have present' : s.deps.loop = some l := present
  refine ⟨_, ?_, step_relate s l⟩
  unfold takeRelated
  rw [present']
  dsimp only
  rw [sited_deps.onLoop, seen, host?_eq present]
  rfl

theorem armed_of_pending {k : ObjectKind} {x : Timer} (ready : Task.timer k x ∈ s.pending) :
    x ∈ s.ofLoop [] (·.timers) k ∧ x.due ≤ s.now := by
  unfold pending at ready
  simp only [List.mem_append, List.mem_flatMap, List.mem_map, List.mem_filter,
    List.mem_filterMap] at ready
  rcases ready with ((((⟨k, -, y, ripe, ⟨⟩⟩ | ⟨_, -, ⟨⟩⟩) | ⟨_, -, ⟨⟩⟩) | stray) | related) |
    ⟨_, -, _, -, ⟨⟩⟩
  · have ripe := List.mem_filter.1 (List.mem_mergeSort.1 ripe)
    exact ⟨ripe.1, of_decide_eq_true ripe.2⟩
  · obtain ⟨_, -, found⟩ := stray
    split at found <;> cases found
  · split at related
    · cases related with
      | tail _ no => cases no
    · cases related

end

theorem Apart.giveUp {S S' : Type} [Hosted S] [Hosted S'] {s : Cluster} (apart : Apart S S')
    (id : Nat) : Aside S s (s.giveUp S' id) := by
  have stays : Aside S s s := .of_eq rfl
  unfold Cluster.giveUp
  split
  · exact stays
  · split
    · split
      · exact apart.rest _ stays
      · exact stays
    · exact stays

def orgDeed (s : Cluster) (l : Loop OrganizationSpec) : Move → Deed OrganizationSpec
  | .organization c => .client (s.written c)
  | .task (.timer .organization x) => .fired x
  | .task (.launch .organization) => s.raised l
  | .task (.takeOwn .organization) => .first l.arrived
  | .task (.work .organization id) => deedAt l id
  | _ => .rest

def depDeed (s : Cluster) (l : Loop DeploymentSpec) : Move → Deed DeploymentSpec
  | .deployment c => .client (s.written c)
  | .task (.timer .deployment x) => .fired x
  | .task (.launch .deployment) => s.raised l
  | .task (.takeOwn .deployment) => .first l.arrived
  | .task .takeRelated => .first l.concerned
  | .task (.work .deployment id) => deedAt l id
  | _ => .rest

section

variable {s t : Cluster} (calm : s.Calm)
include calm

theorem Calm.orgs_task {x : Task} (ready : x ∈ s.pending) :
    Advances s (s.step x) fun l => orgDeed s l (.task x) := by
  cases x with
  | timer k x =>
    cases k with
    | organization =>
      obtain ⟨armed, due⟩ := armed_of_pending ready
      exact sited_orgs.fire armed due
    | deployment => exact (apart_orgs.onLoop s _).advances
  | launch k =>
    cases k with
    | organization => exact sited_orgs.comeUp calm
    | deployment => exact (apart_orgs.comeUp sited_deps calm).advances
  | takeOwn k =>
    cases k with
    | organization => exact sited_orgs.takeOwn
    | deployment => exact (apart_orgs.onLoop s _).advances
  | takeStray id =>
    exact (aside_takeStray calm.lists_orgs (fun _ _ => rfl) id).advances
  | takeRelated =>
    have aside : Aside OrganizationSpec s s.takeRelated := by
      unfold Cluster.takeRelated
      split
      · exact .of_eq rfl
      · exact apart_orgs.rest _ (.of_eq (host?_relate calm.lists_orgs _))
    exact aside.advances
  | work k id =>
    cases k with
    | organization => exact sited_orgs.work calm (sited_orgs.list calm).2.2 id
    | deployment => exact (apart_orgs.work sited_deps calm id).advances

theorem Calm.deps_task {x : Task} (ready : x ∈ s.pending) :
    Advances s (s.step x) fun l => depDeed s l (.task x) := by
  cases x with
  | timer k x =>
    cases k with
    | organization => exact (apart_deps.onLoop s _).advances
    | deployment =>
      obtain ⟨armed, due⟩ := armed_of_pending ready
      exact sited_deps.fire armed due
  | launch k =>
    cases k with
    | organization => exact (apart_deps.comeUp sited_orgs calm).advances
    | deployment => exact sited_deps.comeUp calm
  | takeOwn k =>
    cases k with
    | organization => exact (apart_deps.onLoop s _).advances
    | deployment => exact sited_deps.takeOwn
  | takeStray id =>
    exact (aside_takeStray (sited_deps.list calm).2.2 (fun _ _ => rfl) id).advances
  | takeRelated => exact advances_takeRelated calm
  | work k id =>
    cases k with
    | organization => exact (apart_deps.work sited_orgs calm id).advances
    | deployment => exact sited_deps.work calm calm.lists_deps id

theorem Calm.orgs_move {m : Move} (made : s.move? m = some t) (later : s.now ≤ t.now) :
    Advances s t fun l => orgDeed s l m := by
  unfold move? at made
  cases m with
  | organization c =>
    cases made
    exact sited_orgs.serve calm c
  | deployment c =>
    cases c with
    | updateStatus => cases made
    | create | delete | update =>
      cases made
      exact (apart_orgs.serve sited_deps calm _).advances
  | task x =>
    dsimp only at made
    split at made
    · rename_i ready
      cases made
      exact calm.orgs_task ready
    · cases made
  | giveUp k id =>
    cases made
    cases k with
    | organization => exact sited_orgs.giveUp id
    | deployment => exact (apart_orgs.giveUp id).advances
  | setUp k =>
    dsimp only at made
    split at made
    · rename_i vacant
      split at made
      · rename_i done
        cases made
        cases k with
        | organization =>
          have vacant : (s.loop? OrganizationSpec).isNone = true := vacant
          exact advances_of_vacant vacant
        | deployment =>
          unfold setUpOne ObjectKind.on at done
          dsimp only at done
          split at done
          · cases done
          · cases done
            exact (apart_orgs.addLoop s _).advances
      · cases made
    · cases made
  | halt k =>
    cases made
    cases k with
    | organization => exact sited_orgs.turn fun l _ => .halt
    | deployment => exact (apart_orgs.onLoop s _).advances
  | tick now clock =>
    cases made
    exact sited_orgs.tick clock later

theorem Calm.deps_move {m : Move} (made : s.move? m = some t) (later : s.now ≤ t.now) :
    Advances s t fun l => depDeed s l m := by
  unfold move? at made
  cases m with
  | organization c =>
    cases made
    exact (apart_deps.serve sited_orgs calm c).advances
  | deployment c =>
    cases c with
    | updateStatus => cases made
    | create | delete | update =>
      cases made
      exact sited_deps.serve calm _
  | task x =>
    dsimp only at made
    split at made
    · rename_i ready
      cases made
      exact calm.deps_task ready
    · cases made
  | giveUp k id =>
    cases made
    cases k with
    | organization => exact (apart_deps.giveUp id).advances
    | deployment => exact sited_deps.giveUp id
  | setUp k =>
    dsimp only at made
    split at made
    · rename_i vacant
      split at made
      · rename_i done
        cases made
        cases k with
        | organization =>
          unfold setUpOne ObjectKind.on at done
          dsimp only at done
          split at done
          · cases done
          · cases done
            exact (apart_deps.addLoop s _).advances
        | deployment =>
          have vacant : (s.loop? DeploymentSpec).isNone = true := vacant
          exact advances_of_vacant vacant
      · cases made
    · cases made
  | halt k =>
    cases made
    cases k with
    | organization => exact (apart_deps.onLoop s _).advances
    | deployment => exact sited_deps.turn fun l _ => .halt
  | tick now clock =>
    cases made
    exact sited_deps.tick clock later

end

/-! ### Plays -/

section

variable {S : Type} [Hosted S]

/-- Makes moves one after the other, as long as they can be made, fit the loop and do not set the
time back. What they come to at the loop is noted with its time. -/
def play (deed : Cluster → Loop S → Move → Deed S) (fits : Loop S → Deed S → Bool) :
    List Move → Cluster × List (Nat × Deed S) → Option (Cluster × List (Nat × Deed S))
  | [], p => some p
  | m :: ms, (s, tr) =>
    match s.loop? S, s.move? m with
    | some l, some t =>
      if s.now ≤ t.now ∧ fits l (deed s l m) = true then
        play deed fits ms (t, tr ++ [(s.now, deed s l m)])
      else none
    | _, _ => none

variable {deed : Cluster → Loop S → Move → Deed S} {fits : Loop S → Deed S → Bool}
  {allowed : Station S → Deed S → Station S → Prop} {a : Station S} {ms : List Move}
  {p q : Cluster × List (Nat × Deed S)}

theorem run_of_play (moves : ∀ (s t : Cluster) (m : Move), s.Calm → s.move? m = some t →
      s.now ≤ t.now → Advances s t fun l => deed s l m)
    (allows : ∀ c d c', fits c.loop d = true → allowed c d c')
    (made : play deed fits ms p = some q) (calm : p.1.Calm)
    (run : ∃ c, p.1.host? S = some c ∧ Station.Run allowed a p.2 c) :
    q.1.Calm ∧ ∃ c, q.1.host? S = some c ∧ Station.Run allowed a q.2 c := by
  induction ms generalizing p with
  | nil =>
    cases made
    exact ⟨calm, run⟩
  | cons m ms ih =>
    obtain ⟨s, tr⟩ := p
    obtain ⟨c, here, run⟩ := run
    unfold play at made
    split at made
    · rename_i l t present move
      split at made
      · rename_i ok
        obtain ⟨c', after, step⟩ := moves s t m calm move ok.1 l present
        cases (host?_eq present).symm.trans here
        exact ih made (calm.move move).calm ⟨c', after, run.step step (allows _ _ _ ok.2)⟩
      · cases made
    · cases made

end

theorem run_of_play_orgs {fits : Loop OrganizationSpec → Deed OrganizationSpec → Bool}
    {allowed : Station OrganizationSpec → Deed OrganizationSpec → Station OrganizationSpec → Prop}
    {s : Cluster} {a : Station OrganizationSpec} {ms : List Move}
    {q : Cluster × List (Nat × Deed OrganizationSpec)} (calm : s.Calm)
    (here : s.host? OrganizationSpec = some a)
    (allows : ∀ c d c', fits c.loop d = true → allowed c d c')
    (made : play orgDeed fits ms (s, []) = some q) :
    q.1.Calm ∧ ∃ c, q.1.host? OrganizationSpec = some c ∧ Station.Run allowed a q.2 c :=
  run_of_play (fun _ _ _ calm move later => calm.orgs_move move later) allows made calm
    ⟨a, here, .here⟩

theorem run_of_play_deps {fits : Loop DeploymentSpec → Deed DeploymentSpec → Bool}
    {allowed : Station DeploymentSpec → Deed DeploymentSpec → Station DeploymentSpec → Prop}
    {s : Cluster} {a : Station DeploymentSpec} {ms : List Move}
    {q : Cluster × List (Nat × Deed DeploymentSpec)} (calm : s.Calm)
    (here : s.host? DeploymentSpec = some a)
    (allows : ∀ c d c', fits c.loop d = true → allowed c d c')
    (made : play depDeed fits ms (s, []) = some q) :
    q.1.Calm ∧ ∃ c, q.1.host? DeploymentSpec = some c ∧ Station.Run allowed a q.2 c :=
  run_of_play (fun _ _ _ calm move later => calm.deps_move move later) allows made calm
    ⟨a, here, .here⟩

def vacant (S : Type) [Hosted S] (settings : Settings) (withRelated : Bool) : Cluster :=
  (start settings .epoch ⟨0⟩).addLoop S false withRelated

end Cluster
end Tenancy
