import Mathlib.Data.List.Nodup
import Mathlib.Logic.Function.Basic
import Mathlib.Logic.Relation
import Tenancy.Proofs.Queue.Consistent
import Tenancy.Proofs.Queue.Lobby

/-! Waking up. Whoever wants a key enters the lobby, looks at the queue, and rests if there is
nothing; between any two of these steps the others may take theirs. However they do, nobody rests
while there is a key unless he was rung for or somebody else is on his feet, and nobody is left to
rest when the queue has been shut down. -/

namespace Tenancy

namespace Lobby

variable {l : Lobby} {w : Waiter} {id : Nat}

/-! ### A look in two steps -/

def check (l : Lobby) : WorkQueue.Popped × Lobby :=
  match l.queue.pop with
  | (.key k, q) => (.key k, { l with queue := q }.ringIf (!q.queue.isEmpty))
  | (r, _) => (r, l)

def suspend (l : Lobby) (id : Nat) : Lobby :=
  { l with waiters := l.waiters.map fun w => if w.id = id then { w with suspended := true } else w }

def rest (l : Lobby) (id : Nat) : Looked × Lobby :=
  match l.find? id with
  | some ⟨_, some _, _⟩ => (.again, l.drop id)
  | _ => (.suspended, l.suspend id)

theorem look_eq (l : Lobby) (id : Nat) :
    l.look id =
      match l.check with
      | (.closed, m) => (.closed, m.leave id)
      | (.key k, m) => (.key k, m.leave id)
      | (.nothing, m) => m.rest id := by
  unfold look check
  rcases l.queue.pop with ⟨r, q⟩
  cases r with
  | closed | key | nothing => rfl

theorem rest_cases (l : Lobby) (id : Nat) :
    l.rest id = (.again, l.drop id) ∨ l.rest id = (.suspended, l.suspend id) := by
  unfold rest
  split
  · exact .inl rfl
  · exact .inr rfl

theorem rest_of_rung (found : l.find? id = some w) (rung : w.ring.isSome) :
    l.rest id = (.again, l.drop id) := by
  obtain ⟨i, ring, s⟩ := w
  obtain ⟨r, rfl⟩ := Option.isSome_iff_exists.1 rung
  rw [rest, found]

/-! ### Rings -/

theorem ringFirst_some {ws vs : List Waiter} (h : ringFirst ws = some vs) :
    ∃ before w after, ws = before ++ w :: after ∧ w.ring = none ∧
      vs = before ++ { w with ring := some .one } :: after := by
  induction ws generalizing vs with
  | nil => cases h
  | cons w ws ih =>
    unfold ringFirst at h
    split at h
    · rename_i unrung
      cases h
      exact ⟨[], w, ws, rfl, Option.isNone_iff_eq_none.1 unrung, rfl⟩
    · obtain ⟨us, later, rfl⟩ := Option.map_eq_some_iff.1 h
      obtain ⟨before, v, after, rfl, unrung, rfl⟩ := ih later
      exact ⟨w :: before, v, after, rfl, unrung, rfl⟩

theorem ringFirst_none {ws : List Waiter} (h : ringFirst ws = none) : ∀ w ∈ ws, w.ring ≠ none := by
  induction ws with
  | nil => exact List.forall_mem_nil _
  | cons w ws ih =>
    unfold ringFirst at h
    split at h
    · cases h
    · rename_i rung
      have later := ih (Option.map_eq_none_iff.1 h)
      exact List.forall_mem_cons.2 ⟨fun unrung => rung (Option.isNone_iff_eq_none.2 unrung), later⟩

theorem ring_cases (l : Lobby) :
    (∃ before w after, l.waiters = before ++ w :: after ∧ w.ring = none ∧
      l.ring = { l with waiters := before ++ { w with ring := some .one } :: after }) ∨
    (∀ w ∈ l.waiters, w.ring ≠ none) ∧ l.ring = { l with kept := true } := by
  unfold ring
  cases h : ringFirst l.waiters with
  | some vs =>
    obtain ⟨before, w, after, waiters, unrung, rfl⟩ := ringFirst_some h
    exact .inl ⟨before, w, after, waiters, unrung, rfl⟩
  | none => exact .inr ⟨ringFirst_none h, rfl⟩

theorem ids_ring (l : Lobby) : l.ring.waiters.map Waiter.id = l.waiters.map Waiter.id := by
  rcases l.ring_cases with ⟨before, v, after, waiters, -, ring⟩ | ⟨-, ring⟩
  · simp [ring, waiters]
  · rw [ring]

theorem mem_ring (h : w ∈ l.ring.waiters) :
    ∃ v ∈ l.waiters, v.id = w.id ∧ v.suspended = w.suspended ∧ (w.ring = none → v.ring = none) := by
  rcases l.ring_cases with ⟨before, v, after, waiters, unrung, ring⟩ | ⟨-, ring⟩
  · rw [ring, List.mem_append, List.mem_cons] at h
    rw [waiters]
    rcases h with h | rfl | h
    · exact ⟨w, List.mem_append_left _ h, rfl, rfl, fun unrung => unrung⟩
    · exact ⟨v, List.mem_append_right _ List.mem_cons_self, rfl, rfl, fun _ => unrung⟩
    · exact ⟨w, List.mem_append_right _ (List.mem_cons_of_mem v h), rfl, rfl, fun unrung => unrung⟩
  · rw [ring] at h
    exact ⟨w, h, rfl, rfl, fun unrung => unrung⟩

theorem rung_of_ring (h : w ∈ l.ring.waiters) (unrung : w.ring = none) :
    ∃ v ∈ l.ring.waiters, v.ring = some .one := by
  rcases l.ring_cases with ⟨before, v, after, -, -, ring⟩ | ⟨rung, ring⟩
  · rw [ring]
    exact ⟨_, List.mem_append_right _ List.mem_cons_self, rfl⟩
  · rw [ring] at h
    exact absurd unrung (rung w h)

theorem mem_suspend (h : w ∈ (l.suspend id).waiters) :
    ∃ v ∈ l.waiters, v.id = w.id ∧ v.ring = w.ring ∧
      (w.suspended = true → v.suspended = true ∨ v.id = id) := by
  obtain ⟨v, hv, rfl⟩ := List.mem_map.1 h
  refine ⟨v, hv, ?_⟩
  split
  · rename_i named
    exact ⟨rfl, rfl, fun _ => .inr named⟩
  · exact ⟨rfl, rfl, .inl⟩

theorem mem_suspend_of_mem (h : w ∈ l.waiters) (id : Nat) :
    ∃ v ∈ (l.suspend id).waiters, v.id = w.id ∧ v.ring = w.ring := by
  refine ⟨_, List.mem_map_of_mem h, ?_⟩
  split <;> exact ⟨rfl, rfl⟩

theorem mem_drop : w ∈ (l.drop id).waiters ↔ w ∈ l.waiters ∧ w.id ≠ id := by
  simp [drop]

theorem leave_eq (nodup : (l.waiters.map Waiter.id).Nodup) (id : Nat) :
    ∃ passed, l.leave id = (l.drop id).ringIf passed ∧
      (passed = false → ∀ w ∈ l.waiters, w.id = id → w.ring ≠ some .one) := by
  unfold leave
  cases found : l.find? id with
  | some v =>
    refine ⟨_, rfl, fun kept w hw same one => ?_⟩
    have hv : v ∈ l.waiters := List.mem_of_find?_eq_some found
    have named : v.id = id := by simpa using List.find?_some found
    have equal : w = v := List.inj_on_of_nodup_map nodup hw hv (same.trans named.symm)
    subst equal
    rw [one] at kept
    cases kept
  | none =>
    have absent : ∀ w ∈ l.waiters, w.id ≠ id := fun w hw same =>
      List.find?_eq_none.1 found w hw (beq_iff_eq.2 same)
    have all : l.drop id = l := by
      unfold drop
      rw [List.filter_eq_self.2 fun w hw => bne_iff_ne.2 (absent w hw)]
    refine ⟨false, by rw [all]; rfl, fun _ w hw same => absurd same (absent w hw)⟩

end Lobby

/-! ### The steps of many -/

/-- How far somebody has come. Who was rung for is to enter `again`; who is `idle` has found
nothing, and is to rest or does so; who is `served` has an answer, and is to leave. -/
inductive Stage where
  | out
  | again
  | entered
  | idle
  | served
deriving DecidableEq

def WorkQueue.Popped.stage : WorkQueue.Popped → Stage
  | closed | key _ => .served
  | nothing => .idle

def Lobby.Looked.stage : Lobby.Looked → Stage
  | closed | key _ => .out
  | again => .again
  | suspended => .idle

structure Hall where
  lobby : Lobby
  stage : Nat → Stage

namespace Hall

variable {h h' : Hall} {l m : Lobby} {stage : Nat → Stage} {id : Nat} {w : Waiter}

def empty : Hall := ⟨.empty, fun _ => .out⟩

def move (h : Hall) (l : Lobby) (id : Nat) (s : Stage) : Hall := ⟨l, Function.update h.stage id s⟩

@[simp] theorem move_lobby (h : Hall) (l : Lobby) (id : Nat) (s : Stage) :
    (h.move l id s).lobby = l := rfl

@[simp] theorem move_stage_self (h : Hall) (l : Lobby) (id : Nat) (s : Stage) :
    (h.move l id s).stage id = s :=
  Function.update_self ..

theorem move_stage_of_ne {i : Nat} (other : i ≠ id) (h : Hall) (l : Lobby) (s : Stage) :
    (h.move l id s).stage i = h.stage i :=
  Function.update_of_ne other ..

@[simp] theorem move_move (h : Hall) (l m : Lobby) (id : Nat) (s t : Stage) :
    (h.move l id s).move m id t = h.move m id t := by
  simp [move]

inductive Step (h : Hall) : Hall → Prop
  | add (k : Key) : Step h ⟨h.lobby.add k, h.stage⟩
  | done (k : Key) : Step h ⟨h.lobby.done k, h.stage⟩
  | shutDown : Step h ⟨h.lobby.shutDown, h.stage⟩
  | enter (id : Nat) (arrives : h.stage id = .out ∨ h.stage id = .again) :
    Step h (h.move (h.lobby.enter id) id .entered)
  | look (id : Nat) (entered : h.stage id = .entered) :
    Step h (h.move h.lobby.check.2 id h.lobby.check.1.stage)
  | rest (id : Nat) (idle : h.stage id = .idle) :
    Step h (h.move (h.lobby.rest id).2 id (h.lobby.rest id).1.stage)
  | leave (id : Nat) (ends : h.stage id = .served ∨ h.stage id = .idle) :
    Step h (h.move (h.lobby.leave id) id .out)

abbrev Steps : Hall → Hall → Prop := Relation.ReflTransGen Step

/-! ### Turns at one go are runs of steps -/

theorem steps_look (entered : h.stage id = .entered) :
    Steps h (h.move (h.lobby.look id).2 id (h.lobby.look id).1.stage) := by
  have first := Step.look id entered
  rw [Lobby.look_eq]
  generalize h.lobby.check = r at first
  obtain ⟨r, l⟩ := r
  have here : (h.move l id r.stage).stage id = r.stage := move_stage_self ..
  cases r with
  | closed | key =>
    have second := Step.leave id (.inl here)
    rw [move_move] at second
    exact .tail (.single first) second
  | nothing =>
    have second := Step.rest id here
    rw [move_move] at second
    exact .tail (.single first) second

theorem steps_pop (arrives : h.stage id = .out ∨ h.stage id = .again) :
    Steps h (h.move (h.lobby.pop id).2 id (h.lobby.pop id).1.stage) := by
  have look {h : Hall} (arrives : h.stage id = .out ∨ h.stage id = .again) :
      Steps h (h.move ((h.lobby.enter id).look id).2 id ((h.lobby.enter id).look id).1.stage) := by
    have later := steps_look (move_stage_self h (h.lobby.enter id) id .entered)
    rw [move_move] at later
    exact .head (.enter id arrives) later
  have first := look arrives
  unfold Lobby.pop
  split
  · rename_i l again
    rw [again] at first
    have second := look (.inr (move_stage_self h l id .again))
    rw [move_move] at second
    exact first.trans second
  · exact first

theorem steps_resume (idle : h.stage id = .idle) (found : h.lobby.find? id = some w)
    (rung : w.ring.isSome) :
    Steps h (h.move (h.lobby.resume id).2 id (h.lobby.resume id).1.stage) := by
  have first := Step.rest id idle
  rw [Lobby.rest_of_rung found rung] at first
  have later := steps_pop (.inr (move_stage_self h (h.lobby.drop id) id .again))
  rw [move_move] at later
  exact .head first later

/-! ### Who is on his feet -/

/-- Is yet to look, or has been rung for and so will look or pass the ring on. -/
def Stirring (h : Hall) (id : Nat) : Prop :=
  h.stage id = .entered ∨ h.stage id = .again ∨
    ∃ w ∈ h.lobby.waiters, w.id = id ∧ w.ring = some .one

structure Tidy (h : Hall) : Prop where
  nodup : (h.lobby.waiters.map Waiter.id).Nodup
  inside : ∀ w ∈ h.lobby.waiters, h.stage w.id ≠ .out ∧ h.stage w.id ≠ .again
  resting : ∀ w ∈ h.lobby.waiters, w.suspended = true → h.stage w.id = .idle
  closed : h.lobby.queue.closed = true → h.lobby.queue.queue = [] ∧
    ∀ w ∈ h.lobby.waiters, h.stage w.id = .idle → w.ring ≠ none

/-- While there is a key, somebody is on his feet if anybody has found nothing and knows nothing. -/
def Alert (h : Hall) : Prop :=
  h.lobby.queue.queue ≠ [] → ∀ w ∈ h.lobby.waiters, h.stage w.id = .idle → w.ring = none →
    ∃ id, h.Stirring id

structure Sound (h : Hall) : Prop extends h.Tidy where
  alert : h.Alert

/-! ### What rings and stages do to it -/

theorem Tidy.of_old (tidy : Tidy ⟨l, stage⟩)
    (ids : m.waiters.map Waiter.id = l.waiters.map Waiter.id)
    (old : ∀ w ∈ m.waiters, ∃ v ∈ l.waiters, v.id = w.id ∧
      (w.suspended = true → v.suspended = true ∨ stage v.id = .idle))
    (closed : m.queue.closed = true → m.queue.queue = [] ∧
      ∀ w ∈ m.waiters, stage w.id = .idle → w.ring ≠ none) : Tidy ⟨m, stage⟩ := by
  refine ⟨ids ▸ tidy.nodup, fun w hw => ?_, fun w hw suspended => ?_, closed⟩
  · obtain ⟨v, hv, same, -⟩ := old w hw
    exact same ▸ tidy.inside v hv
  · obtain ⟨v, hv, same, before⟩ := old w hw
    rcases before suspended with before | idle
    · exact same ▸ tidy.resting v hv before
    · exact same ▸ idle

theorem Tidy.ring (tidy : Tidy ⟨l, stage⟩) : Tidy ⟨l.ring, stage⟩ := by
  refine tidy.of_old l.ids_ring (fun w hw => ?_) fun closed => ?_
  · obtain ⟨v, hv, same, before, -⟩ := Lobby.mem_ring hw
    exact ⟨v, hv, same, fun suspended => .inl (before.trans suspended)⟩
  · rw [Lobby.queue_ring] at closed ⊢
    obtain ⟨empty, rung⟩ := tidy.closed closed
    refine ⟨empty, fun w hw idle unrung => ?_⟩
    obtain ⟨v, hv, same, -, before⟩ := Lobby.mem_ring hw
    exact rung v hv (same ▸ idle) (before unrung)

theorem Tidy.sound_ringIf {joined : Bool} (h : Tidy ⟨l, stage⟩)
    (alert : joined = false → Alert ⟨l, stage⟩) : Sound ⟨l.ringIf joined, stage⟩ := by
  cases joined with
  | false => exact ⟨h, alert rfl⟩
  | true =>
    refine ⟨h.ring, fun _ w hw _ unrung => ?_⟩
    obtain ⟨v, hv, one⟩ := Lobby.rung_of_ring hw unrung
    exact ⟨v.id, .inr (.inr ⟨v, hv, rfl, one⟩)⟩

theorem Tidy.drop (tidy : h.Tidy) (id : Nat) (s : Stage) :
    (h.move (h.lobby.drop id) id s).Tidy := by
  have old {w : Waiter} (hw : w ∈ (h.lobby.drop id).waiters) :
      w ∈ h.lobby.waiters ∧ (h.move (h.lobby.drop id) id s).stage w.id = h.stage w.id := by
    obtain ⟨hw, other⟩ := Lobby.mem_drop.1 hw
    exact ⟨hw, move_stage_of_ne other ..⟩
  constructor
  case nodup => exact tidy.nodup.sublist (List.filter_sublist.map _)
  case inside => exact fun w hw => (old hw).2 ▸ tidy.inside w (old hw).1
  case resting => exact fun w hw => (old hw).2 ▸ tidy.resting w (old hw).1
  case closed =>
    intro closed
    obtain ⟨empty, rung⟩ := tidy.closed closed
    exact ⟨empty, fun w hw => (old hw).2 ▸ rung w (old hw).1⟩

theorem Tidy.look {q : WorkQueue} {r : WorkQueue.Popped} (tidy : h.Tidy)
    (entered : h.stage id = .entered)
    (closed : q.closed = true → h.lobby.queue.closed = true ∧ q.queue = [] ∧ r ≠ .nothing) :
    (h.move { h.lobby with queue := q } id r.stage).Tidy := by
  constructor
  case nodup => exact tidy.nodup
  case inside =>
    intro w hw
    by_cases same : w.id = id
    · rw [same, move_stage_self]
      cases r <;> exact ⟨nofun, nofun⟩
    · rw [move_stage_of_ne same]
      exact tidy.inside w hw
  case resting =>
    intro w hw suspended
    have idle := tidy.resting w hw suspended
    have other : w.id ≠ id := fun same => by
      rw [same, entered] at idle
      cases idle
    rw [move_stage_of_ne other, idle]
  case closed =>
    intro shut
    obtain ⟨before, empty, answered⟩ := closed shut
    refine ⟨empty, fun w hw idle => ?_⟩
    by_cases same : w.id = id
    · rw [same, move_stage_self] at idle
      cases r with
      | closed | key => cases idle
      | nothing => exact absurd rfl answered
    · rw [move_stage_of_ne same] at idle
      exact (tidy.closed before).2 w hw idle

theorem Tidy.shutDown (tidy : h.Tidy) : Tidy ⟨h.lobby.shutDown, h.stage⟩ := by
  have ids : h.lobby.shutDown.waiters.map Waiter.id = h.lobby.waiters.map Waiter.id := by
    simp [Lobby.shutDown]
  refine Tidy.of_old tidy ids (fun w hw => ?_) fun _ => ⟨rfl, fun w hw _ => ?_⟩
  · obtain ⟨v, hv, rfl⟩ := List.mem_map.1 hw
    exact ⟨v, hv, rfl, .inl⟩
  · obtain ⟨v, -, rfl⟩ := List.mem_map.1 hw
    simp

theorem Tidy.enter (tidy : h.Tidy) (arrives : h.stage id = .out ∨ h.stage id = .again) :
    (h.move (h.lobby.enter id) id .entered).Tidy := by
  have other {w : Waiter} (hw : w ∈ h.lobby.waiters) : w.id ≠ id := by
    rintro rfl
    exact arrives.elim (tidy.inside w hw).1 (tidy.inside w hw).2
  have old {w : Waiter} (hw : w ∈ (h.lobby.enter id).waiters) :
      (w ∈ h.lobby.waiters ∧ (h.move (h.lobby.enter id) id .entered).stage w.id = h.stage w.id) ∨
        w.suspended = false ∧ (h.move (h.lobby.enter id) id .entered).stage w.id = .entered := by
    rcases List.mem_append.1 hw with hw | hw
    · exact .inl ⟨hw, move_stage_of_ne (other hw) ..⟩
    · rw [List.mem_singleton.1 hw]
      exact .inr ⟨rfl, move_stage_self ..⟩
  constructor
  case nodup =>
    rw [move_lobby, Lobby.enter, List.map_append, List.nodup_append]
    refine ⟨tidy.nodup, List.nodup_singleton _, fun i hi j hj => ?_⟩
    obtain ⟨w, hw, rfl⟩ := List.mem_map.1 hi
    rw [List.mem_singleton.1 hj]
    exact other hw
  case inside =>
    intro w hw
    rcases old hw with ⟨hw, same⟩ | ⟨-, entered⟩
    · exact same ▸ tidy.inside w hw
    · rw [entered]
      exact ⟨nofun, nofun⟩
  case resting =>
    intro w hw suspended
    rcases old hw with ⟨hw, same⟩ | ⟨awake, -⟩
    · exact same ▸ tidy.resting w hw suspended
    · cases awake.symm.trans suspended
  case closed =>
    intro closed
    obtain ⟨empty, rung⟩ := tidy.closed closed
    refine ⟨empty, fun w hw idle => ?_⟩
    rcases old hw with ⟨hw, same⟩ | ⟨-, entered⟩
    · exact rung w hw (same ▸ idle)
    · cases entered.symm.trans idle

theorem Tidy.suspend (tidy : h.Tidy) (idle : h.stage id = .idle) :
    Tidy ⟨h.lobby.suspend id, h.stage⟩ := by
  have ids : (h.lobby.suspend id).waiters.map Waiter.id = h.lobby.waiters.map Waiter.id := by
    rw [Lobby.suspend, List.map_map]
    refine List.map_congr_left fun w _ => ?_
    dsimp only [Function.comp]
    split <;> rfl
  refine Tidy.of_old tidy ids (fun w hw => ?_) fun closed => ?_
  · obtain ⟨v, hv, same, -, before⟩ := Lobby.mem_suspend hw
    refine ⟨v, hv, same, fun suspended => (before suspended).imp_right fun named => ?_⟩
    exact (congrArg h.stage named).trans idle
  · obtain ⟨empty, rung⟩ := tidy.closed closed
    refine ⟨empty, fun w hw idle => ?_⟩
    obtain ⟨v, hv, same, ring, -⟩ := Lobby.mem_suspend hw
    exact ring ▸ rung v hv (same ▸ idle)

/-! ### What the steps do to it -/

namespace Sound

theorem empty : Sound empty where
  nodup := List.nodup_nil
  inside := List.forall_mem_nil _
  resting := List.forall_mem_nil _
  closed := nofun
  alert waiting := absurd rfl waiting

theorem joins (sound : h.Sound) {q : WorkQueue} {joined : Bool}
    (closed : q.closed = h.lobby.queue.closed)
    (open_ : joined = true → h.lobby.queue.closed = false)
    (same : joined = false → q.queue = h.lobby.queue.queue) :
    Sound ⟨{ h.lobby with queue := q }.ringIf joined, h.stage⟩ := by
  have tidy : Tidy ⟨{ h.lobby with queue := q }, h.stage⟩ := by
    refine ⟨sound.nodup, sound.inside, sound.resting, fun shut => ?_⟩
    have shut : h.lobby.queue.closed = true := closed ▸ shut
    have kept : joined = false := Bool.eq_false_iff.2 fun joins => by
      cases (open_ joins).symm.trans shut
    have before := sound.closed shut
    exact ⟨(same kept).trans before.1, before.2⟩
  refine tidy.sound_ringIf fun kept waiting => ?_
  exact sound.alert (same kept ▸ waiting)

theorem add (sound : h.Sound) (k : Key) : Sound ⟨h.lobby.add k, h.stage⟩ := by
  rw [Lobby.add_eq]
  refine sound.joins (WorkQueue.closed_add ..) (fun joins => (WorkQueue.add_joins.1 joins).1)
    fun kept => ?_
  simp [WorkQueue.queue_add, kept]

theorem done (sound : h.Sound) (k : Key) : Sound ⟨h.lobby.done k, h.stage⟩ := by
  rw [Lobby.done_eq]
  refine sound.joins (WorkQueue.closed_done ..) (fun joins => (WorkQueue.done_joins.1 joins).2)
    fun kept => ?_
  simp [WorkQueue.queue_done, kept]

theorem shutDown (sound : h.Sound) : Sound ⟨h.lobby.shutDown, h.stage⟩ :=
  ⟨sound.toTidy.shutDown, fun waiting => absurd rfl waiting⟩

theorem enter (sound : h.Sound) (arrives : h.stage id = .out ∨ h.stage id = .again) :
    (h.move (h.lobby.enter id) id .entered).Sound :=
  ⟨sound.toTidy.enter arrives, fun _ _ _ _ _ => ⟨id, .inl (move_stage_self ..)⟩⟩

theorem look (sound : h.Sound) (entered : h.stage id = .entered) :
    (h.move h.lobby.check.2 id h.lobby.check.1.stage).Sound := by
  unfold Lobby.check
  rcases hp : h.lobby.queue.pop with ⟨r, q⟩
  cases r with
  | key k =>
    have open_ : q.closed = false := (WorkQueue.pop_key hp).2.1
    have tidy : (h.move { h.lobby with queue := q } id (WorkQueue.Popped.key k).stage).Tidy :=
      sound.toTidy.look entered fun shut => by cases open_.symm.trans shut
    refine tidy.sound_ringIf fun last waiting => ?_
    exact absurd (by simpa using last) waiting
  | closed =>
    have shut := WorkQueue.closed_of_pop hp
    have empty : h.lobby.queue.queue = [] := (sound.closed shut).1
    have tidy : (h.move h.lobby id WorkQueue.Popped.closed.stage).Tidy :=
      sound.toTidy.look entered fun _ => ⟨shut, empty, nofun⟩
    exact ⟨tidy, fun waiting => absurd empty waiting⟩
  | nothing =>
    obtain ⟨open_, empty⟩ := WorkQueue.pop_nothing hp
    have tidy : (h.move h.lobby id WorkQueue.Popped.nothing.stage).Tidy :=
      sound.toTidy.look entered fun shut => by cases open_.symm.trans shut
    exact ⟨tidy, fun waiting => absurd empty waiting⟩

theorem rest (sound : h.Sound) (idle : h.stage id = .idle) :
    (h.move (h.lobby.rest id).2 id (h.lobby.rest id).1.stage).Sound := by
  rcases h.lobby.rest_cases id with eq | eq
  · rw [eq]
    exact ⟨sound.toTidy.drop id .again, fun _ _ _ _ _ => ⟨id, .inr (.inl (move_stage_self ..))⟩⟩
  · have stays : h.move (h.lobby.suspend id) id .idle = ⟨h.lobby.suspend id, h.stage⟩ := by
      rw [move, ← idle, Function.update_eq_self]
    rw [eq, Lobby.Looked.stage, stays]
    -- to be suspended changes neither rings nor stages
    refine ⟨sound.toTidy.suspend idle, fun waiting w hw idle unrung => ?_⟩
    obtain ⟨v, hv, same, ring, -⟩ := Lobby.mem_suspend hw
    obtain ⟨i, stirring⟩ := sound.alert waiting v hv (same ▸ idle) (ring.trans unrung)
    refine ⟨i, stirring.imp_right <| Or.imp_right ?_⟩
    rintro ⟨u, hu, named, one⟩
    obtain ⟨u', hu', named', ring'⟩ := Lobby.mem_suspend_of_mem hu id
    exact ⟨u', hu', named'.trans named, ring'.trans one⟩

theorem leave (sound : h.Sound) (ends : h.stage id = .served ∨ h.stage id = .idle) :
    (h.move (h.lobby.leave id) id .out).Sound := by
  obtain ⟨passed, eq, own⟩ := Lobby.leave_eq sound.nodup id
  rw [eq]
  refine (sound.toTidy.drop id .out).sound_ringIf fun kept waiting w hw idle unrung => ?_
  -- no ring is passed on, so whoever was on his feet before is not the one who leaves
  obtain ⟨hw, other⟩ := Lobby.mem_drop.1 hw
  have idle : h.stage w.id = .idle := move_stage_of_ne other h .. ▸ idle
  obtain ⟨i, stirring⟩ := sound.alert waiting w hw idle unrung
  have stays : i ≠ id := by
    rintro rfl
    rcases stirring with at_ | at_ | ⟨v, hv, named, one⟩
    · rcases ends with ends | ends <;> cases at_.symm.trans ends
    · rcases ends with ends | ends <;> cases at_.symm.trans ends
    · exact own kept v hv named one
  have stage := move_stage_of_ne stays h (h.lobby.drop id) .out
  refine ⟨i, stirring.imp stage.trans (Or.imp stage.trans ?_)⟩
  rintro ⟨v, hv, rfl, one⟩
  exact ⟨v, Lobby.mem_drop.2 ⟨hv, stays⟩, rfl, one⟩

theorem step (sound : h.Sound) (step : Step h h') : h'.Sound := by
  cases step with
  | add k => exact sound.add k
  | done k => exact sound.done k
  | shutDown => exact sound.shutDown
  | enter id arrives => exact sound.enter arrives
  | look id entered => exact sound.look entered
  | rest id idle => exact sound.rest idle
  | leave id ends => exact sound.leave ends

theorem steps (sound : h.Sound) (steps : Steps h h') : h'.Sound := by
  induction steps with
  | refl => exact sound
  | tail _ last ih => exact ih.step last

end Sound

/-! ### Main result -/

theorem closed_step (step : Step h h') (closed : h.lobby.queue.closed = true) :
    h'.lobby.queue.closed = true := by
  cases step with
  | add k => rw [Lobby.queue_add, WorkQueue.closed_add, closed]
  | done k => rw [Lobby.queue_done, WorkQueue.closed_done, closed]
  | shutDown => rfl
  | enter => exact closed
  | look =>
    rw [move_lobby, Lobby.check, WorkQueue.pop_of_closed closed]
    exact closed
  | rest id =>
    rcases h.lobby.rest_cases id with eq | eq <;> rw [eq] <;> exact closed
  | leave id => rw [move_lobby, Lobby.queue_leave, closed]

theorem closed_steps (steps : Steps h h') (closed : h.lobby.queue.closed = true) :
    h'.lobby.queue.closed = true := by
  induction steps with
  | refl => exact closed
  | tail _ last ih => exact closed_step last ih

theorem Sound.not_stirring (sound : h.Sound) (hw : w ∈ h.lobby.waiters)
    (suspended : w.suspended = true) (unrung : w.ring = none) : ¬h.Stirring w.id := by
  have idle := sound.resting w hw suspended
  rintro (at_ | at_ | ⟨v, hv, same, one⟩)
  · cases at_.symm.trans idle
  · cases at_.symm.trans idle
  · have equal : v = w := List.inj_on_of_nodup_map sound.nodup hv hw same
    rw [equal, unrung] at one
    cases one

/-- In whatever order the steps are taken: while somebody is suspended who was not rung for, and
there is a key, another one is on his feet; and once the queue has been shut down, nobody is
suspended who was not rung for. -/
theorem no_lost_wakeup (reached : Steps empty h) :
    (h.lobby.queue.queue ≠ [] → ∀ w ∈ h.lobby.waiters, w.suspended = true → w.ring = none →
      ∃ id, id ≠ w.id ∧ h.Stirring id) ∧
    ∀ h', Steps ⟨h.lobby.shutDown, h.stage⟩ h' →
      ∀ w ∈ h'.lobby.waiters, w.suspended = true → w.ring ≠ none := by
  have sound : h.Sound := Sound.empty.steps reached
  constructor
  · intro waiting w hw suspended unrung
    obtain ⟨id, stirring⟩ := sound.alert waiting w hw (sound.resting w hw suspended) unrung
    refine ⟨id, ?_, stirring⟩
    rintro rfl
    exact sound.not_stirring hw suspended unrung stirring
  · intro h' later w hw suspended
    have sound' : h'.Sound := sound.shutDown.steps later
    have closed := closed_steps later rfl
    exact (sound'.closed closed).2 w hw (sound'.resting w hw suspended)

theorem no_lost_wakeup_served :
    ∃ h, Steps empty h ∧ h.lobby.queue.queue = [⟨"a", "c"⟩] ∧ ⟨2, none, true⟩ ∈ h.lobby.waiters ∧
      (∃ id, id ≠ 2 ∧ h.Stirring id) ∧
      ∀ h', Steps ⟨h.lobby.shutDown, h.stage⟩ h' →
        ∀ w ∈ h'.lobby.waiters, w.suspended = true → w.ring ≠ none := by
  have start : Steps empty _ := .single (.add ⟨"a", "b"⟩)
  have entered := (start.tail (.enter 0 (.inl rfl))).tail (.enter 1 (.inl rfl))
  have looked := (entered.tail (.look 1 rfl)).tail (.look 0 rfl)
  have suspended := ((looked.tail (.enter 2 (.inl rfl))).tail (.look 2 rfl)).tail (.rest 2 rfl)
  have third {v w x : Waiter} : x ∈ [v, w, x] := by simp
  obtain ⟨h, reached, queue, waits⟩ : ∃ h, Steps empty h ∧
      h.lobby.queue.queue = [⟨"a", "c"⟩] ∧ ⟨2, none, true⟩ ∈ h.lobby.waiters :=
    ⟨_, suspended.tail (.add ⟨"a", "c"⟩), rfl, third⟩
  obtain ⟨others, shut⟩ := no_lost_wakeup reached
  have waiting : h.lobby.queue.queue ≠ [] := by simp [queue]
  exact ⟨h, reached, queue, waits, others waiting _ waits rfl rfl, shut⟩

end Hall
end Tenancy
