import Tenancy.Control.Schedule
import Tenancy.Proofs.Control.Station
import Tenancy.Proofs.Queue.Seats

/-! The turns of the workers of a loop. Each of them brings a worker that does not look for a key
nearer to its end, and once the loop was stopped there is no key any more: then everyone who still
waits was rung for, and leaves. -/

namespace Tenancy

/-- How a worker comes nearer to its end: it goes on with its pass, wakes up, gives the pass up or
ends it, or ends itself where no key is left. -/
inductive Worker.Nearer {S : Type} : Worker S → Worker S → Prop
  | leaves {w : Worker S} (looks : w = .free ∨ w = .waiting) : Nearer .ended w
  | ends {k r deadline} : Nearer .free (.working k (.done r) deadline)
  | goesOn {k q deadline} (next : Request.Answer q → Pass S Outcome) (r : q.Answer) :
    Nearer (.working k (next r) deadline) (.working k (.ask q next) deadline)
  | sleeps {k q deadline wake} (next : Request.Answer q → Pass S Outcome) (r : q.Answer) :
    Nearer (.asleep k (next r) wake deadline) (.working k (.ask q next) deadline)
  | givesUp {k q deadline o} {next : Request.Answer q → Pass S Outcome} :
    Nearer (.working k (.done o) deadline) (.working k (.ask q next) deadline)
  | wakes {k p wake deadline} : Nearer (.working k p deadline) (.asleep k p wake deadline)
  | overdue {k p wake deadline o} :
    Nearer (.working k (.done o) deadline) (.asleep k p wake deadline)

theorem Worker.nearer_wf {S : Type} : WellFounded (Nearer : Worker S → Worker S → Prop) := by
  have ended : Acc Nearer (.ended : Worker S) := by
    constructor
    intro w h
    cases h with
    | leaves looks => rcases looks with h | h <;> cases h
  have leaving {w : Worker S} (looks : w = .free ∨ w = .waiting) : Acc Nearer w := by
    constructor
    intro v h
    rcases looks with rfl | rfl
    · cases h with
      | leaves => exact ended
    · cases h with
      | leaves => exact ended
  have done (k : Key) (r : Outcome) (deadline : Nat) :
      Acc Nearer (.working k (.done r) deadline : Worker S) := by
    constructor
    intro w h
    cases h with
    | leaves looks => rcases looks with h | h <;> cases h
    | ends => exact leaving (.inl rfl)
  have asleep {k : Key} {p : Pass S Outcome} (wake : Nat) {deadline : Nat}
      (working : Acc Nearer (.working k p deadline)) : Acc Nearer (.asleep k p wake deadline) := by
    constructor
    intro w h
    cases h with
    | leaves looks => rcases looks with h | h <;> cases h
    | wakes => exact working
    | overdue => exact done _ _ _
  -- a pass goes on with a part of itself
  have working (k : Key) (p : Pass S Outcome) (deadline : Nat) :
      Acc Nearer (.working k p deadline) := by
    induction p with
    | done r => exact done k r deadline
    | ask q next ih =>
      constructor
      intro w h
      cases h with
      | leaves looks => rcases looks with h | h <;> cases h
      | goesOn => exact ih _
      | sleeps => exact asleep _ (ih _)
      | givesUp => exact done _ _ _
  constructor
  intro w
  cases w with
  | free => exact leaving (.inl rfl)
  | waiting => exact leaving (.inr rfl)
  | working k p deadline => exact working k p deadline
  | asleep k p wake deadline => exact asleep wake (working k p deadline)
  | ended => exact ended

theorem Feed.publish_of_inactive {S : Type} {f : Feed S} (inactive : f.active = false)
    (x : Change S) : f.publish x = f := by
  unfold publish push
  rw [inactive]
  exact ite_self f

namespace Loop

variable {S : Type} {l l' : Loop S} {i : Nat} {w : Worker S}

inductive Works (l : Loop S) (i : Nat) : Loop S → Prop
  | looks {w : Worker S} {r : Lobby.Looked × Lobby} {begin_ : Key → Worker S}
    (at_ : l.workers[i]? = some w) (comes : Station.Comes l i w r)
    (begins : ∀ k, begin_ k ≠ .waiting) :
    Works l i ({ l with lobby := r.2 }.looked i begin_ r.1)
  | goes {w w' : Worker S} (at_ : l.workers[i]? = some w) (busy : w.job? ≠ none)
    (on : w'.job? ≠ none) (nearer : w'.Nearer w) : Works l i (l.setWorker i w')
  | finishes {k : Key} {r : Outcome} {deadline : Nat} (now rank : Nat)
    (at_ : l.workers[i]? = some (.working k (.done r) deadline)) :
    Works l i (l.finish i now rank k r)

/-- Exactly the workers that wait sit in the lobby, and before the launch there is no worker. -/
structure Manned (l : Loop S) : Prop where
  seats : ∀ (j : Nat) (b : Bool),
    (j, b) ∈ l.lobby.seats ↔ l.workers[j]? = some .waiting ∧ b = true
  fresh : l.state = .launching → l.workers = []

theorem Manned.absent (h : l.Manned) (at_ : l.workers[i]? = some w) (busy : w ≠ .waiting) :
    l.lobby.Absent i := by
  apply Lobby.absent_of_seats
  intro b hb
  have waits := ((h.seats i b).1 hb).1
  cases at_.symm.trans waits
  exact busy rfl

theorem Manned.turn (h : l.Manned) (lobby : Lobby) (at_ : l.workers[i]? = some w)
    (w' : Worker S) (seats : ∀ (j : Nat) (b : Bool), (j, b) ∈ lobby.seats ↔
      j = i ∧ w' = .waiting ∧ b = true ∨ j ≠ i ∧ (j, b) ∈ l.lobby.seats) :
    ({ l with lobby }.setWorker i w').Manned := by
  have inside : i < l.workers.length := (List.getElem?_eq_some_iff.1 at_).1
  constructor
  case seats =>
    intro j b
    have found : ({ l with lobby }.setWorker i w').workers[j]? =
        if i = j then some w' else l.workers[j]? := by
      show (l.workers.set i w')[j]? = _
      rw [List.getElem?_set]
      simp only [inside, if_true]
    rw [found]
    refine (seats j b).trans ?_
    split
    · rename_i same
      subst same
      simp
    · rename_i other
      rw [h.seats j b]
      have other : j ≠ i := fun same => other same.symm
      simp [other]
  case fresh =>
    intro launching
    have none_ := h.fresh launching
    rw [none_] at at_
    cases at_

theorem Manned.stay (h : l.Manned) (lobby : Lobby) (at_ : l.workers[i]? = some w)
    (busy : w ≠ .waiting) {w' : Worker S} (on : w' ≠ .waiting)
    (seats : lobby.seats = l.lobby.seats) : ({ l with lobby }.setWorker i w').Manned := by
  have absent := h.absent at_ busy
  refine h.turn lobby at_ w' fun j b => ?_
  rw [seats]
  constructor
  · intro hj
    obtain ⟨v, hv, same, -⟩ := Lobby.mem_seats.1 hj
    exact .inr ⟨same ▸ absent v hv, hj⟩
  · rintro (⟨-, waits, -⟩ | ⟨-, hj⟩)
    · exact absurd waits on
    · exact hj

theorem Manned.look {lobby : Lobby} (h : l.Manned) (at_ : l.workers[i]? = some w)
    (absent : lobby.Absent i)
    (others : ∀ (j : Nat) (b : Bool), (j, b) ∈ lobby.seats ↔ j ≠ i ∧ (j, b) ∈ l.lobby.seats)
    {begin_ : Key → Worker S} (begins : ∀ k, begin_ k ≠ .waiting) :
    ({ l with lobby := (lobby.pop i).2 }.looked i begin_ (lobby.pop i).1).Manned := by
  have seats := Lobby.seats_pop absent
  generalize lobby.pop i = r at seats ⊢
  obtain ⟨looked, left⟩ := r
  rcases seats with ⟨suspended, seats⟩ | ⟨served, answered, seats⟩
  · have suspended : looked = .suspended := suspended
    have seats : left.seats = lobby.seats ++ [(i, true)] := seats
    subst suspended
    refine h.turn left at_ .waiting fun j b => ?_
    rw [seats, List.mem_append, others, List.mem_singleton, Prod.mk.injEq, or_comm]
    simp
  · have seats : left.seats = lobby.seats := seats
    have leaves {w' : Worker S} (gone : w' ≠ .waiting) :
        ({ l with lobby := left }.setWorker i w').Manned := by
      refine h.turn left at_ w' fun j b => ?_
      rw [seats, others]
      simp [gone]
    cases looked with
    | closed => exact leaves nofun
    | key k => exact leaves (begins k)
    | again => exact absurd rfl answered
    | suspended => exact absurd rfl served

theorem Manned.works (h : l.Manned) (works : l.Works i l') : l'.Manned := by
  cases works with
  | looks at_ comes begins =>
    cases comes with
    | free =>
      have absent := h.absent at_ nofun
      refine h.look at_ absent (fun j b => ⟨fun hj => ⟨?_, hj⟩, And.right⟩) begins
      obtain ⟨w, hw, same, -⟩ := Lobby.mem_seats.1 hj
      exact same ▸ absent w hw
    | rung =>
      refine h.look at_ (Lobby.absent_drop _ i) (fun j b => ?_) begins
      rw [Lobby.seats_drop, List.mem_filter, and_comm]
      simp
  | goes at_ busy on =>
    have rests {w : Worker S} (h : w.job? ≠ none) : w ≠ .waiting := by
      rintro rfl
      exact h rfl
    exact h.stay l.lobby at_ (rests busy) (rests on) rfl
  | @finishes k r _ now rank at_ =>
    have untimed (timers : List Timer) : Manned { l with timers } := ⟨h.seats, h.fresh⟩
    refine (untimed (l.finish i now rank k r).timers).stay (l.lobby.done k) at_ ?_ ?_
      (Lobby.seats_done _ _)
    · nofun
    · nofun

inductive Able (l : Loop S) (now i : Nat) : Worker S → Prop
  | free : Able l now i .free
  | working {k p deadline} : Able l now i (.working k p deadline)
  | rung (rung : l.rung i = true) : Able l now i .waiting
  | awake {k p wake deadline} (due : wake ≤ now ∨ deadline ≤ now) :
    Able l now i (.asleep k p wake deadline)

theorem mem_busy {now : Nat} : i ∈ l.busy now ↔
    (∃ v ∈ l.lobby.waiters, v.suspended = true ∧ v.ring.isSome = true ∧ v.id = i) ∨
    ∃ w, l.workers[i]? = some w ∧ w ≠ .waiting ∧ l.Able now i w := by
  unfold busy
  simp only [List.mem_append, List.mem_map, List.mem_filter, Bool.and_eq_true, List.mem_filterMap,
    Prod.exists, List.mem_zipIdx_iff_getElem?]
  refine or_congr ⟨?_, ?_⟩ ⟨?_, ?_⟩
  · rintro ⟨v, ⟨hv, suspended, rung⟩, same⟩
    exact ⟨v, hv, suspended, rung, same⟩
  · rintro ⟨v, hv, suspended, rung, same⟩
    exact ⟨v, ⟨hv, suspended, rung⟩, same⟩
  · rintro ⟨w, j, at_, found⟩
    cases w with
    | free =>
      cases found
      exact ⟨_, at_, nofun, .free⟩
    | working =>
      cases found
      exact ⟨_, at_, nofun, .working⟩
    | asleep k p wake deadline =>
      dsimp only at found
      split at found
      · rename_i due
        cases found
        exact ⟨_, at_, nofun, .awake due⟩
      · cases found
    | waiting | ended => cases found
  · rintro ⟨w, at_, idle, able⟩
    refine ⟨w, i, at_, ?_⟩
    cases able with
    | free | working => rfl
    | rung => exact absurd rfl idle
    | awake due => exact if_pos due

theorem busy_of_able {now : Nat} (at_ : l.workers[i]? = some w) (able : l.Able now i w) :
    i ∈ l.busy now := by
  rw [mem_busy]
  by_cases waits : w = .waiting
  · subst waits
    cases able with
    | rung rung =>
      unfold Loop.rung at rung
      split at rung
      · rename_i v found
        rw [Bool.and_eq_true] at rung
        exact .inl ⟨v, List.mem_of_find?_eq_some found, rung.1, rung.2,
          by simpa using List.find?_some found⟩
      · cases rung
  · exact .inr ⟨w, at_, waits, able⟩

/-! ### Before the signal -/

structure Serving (l : Loop S) : Prop where
  manned : l.Manned
  state : l.state = .launching ∨ l.state = .running
  untold : l.told = false

theorem seats_enqueueAll (l : Loop S) (ks : List Key) :
    (l.enqueueAll ks).lobby.seats = l.lobby.seats := by
  induction ks generalizing l with
  | nil => rfl
  | cons k ks ih => exact (ih (l.enqueue k)).trans (Lobby.seats_add _ _)

theorem Manned.of_same (h : l.Manned) (seats : l'.lobby.seats = l.lobby.seats)
    (workers : l'.workers = l.workers) (state : l'.state = l.state) : l'.Manned := by
  constructor
  · rw [seats, workers]
    exact h.seats
  · rw [workers, state]
    exact h.fresh

theorem Serving.of_same (h : l.Serving) (seats : l'.lobby.seats = l.lobby.seats)
    (workers : l'.workers = l.workers) (state : l'.state = l.state) (told : l'.told = l.told) :
    l'.Serving := by
  refine ⟨h.manned.of_same seats workers state, ?_, told.trans h.untold⟩
  rw [state]
  exact h.state

theorem Serving.starting_eq (h : l.Serving) : l.starting = l.launching := by
  unfold starting launching
  rw [h.untold]
  cases l.state <;> rfl

theorem Serving.readOwn (h : l.Serving) : l.readOwn.Serving := by
  unfold Loop.readOwn
  split
  · rename_i free
    rw [takeOwn_eq l (List.isEmpty_iff.1 free)]
    exact h.of_same rfl rfl rfl rfl
  · unfold enqueueArrived
    split
    · exact h
    · exact h.of_same (Lobby.seats_add _ _) rfl rfl rfl

theorem Serving.launch (h : l.Serving) (state : l.state = .launching) (os : List (Resource S)) :
    (l.launch (.ok os)).Serving := by
  rw [launch_eq]
  refine ⟨⟨fun j b => ?_, nofun⟩, .inr rfl, h.untold⟩
  dsimp only
  rw [seats_enqueueAll, h.manned.seats j b, h.manned.fresh state, List.getElem?_replicate]
  constructor
  · rintro ⟨waits, -⟩
    cases waits
  · rintro ⟨waits, -⟩
    split at waits <;> cases waits

theorem Works.state (works : l.Works i l') : l'.state = l.state ∧ l'.told = l.told := by
  cases works with
  | @looks w r begin_ =>
    generalize r.1 = looked
    cases looked <;> exact ⟨rfl, rfl⟩
  | goes | finishes => exact ⟨rfl, rfl⟩

theorem Serving.works (h : l.Serving) (works : l.Works i l') : l'.Serving := by
  obtain ⟨state, told⟩ := works.state
  refine ⟨h.manned.works works, ?_, told.trans h.untold⟩
  rw [state]
  exact h.state

/-! ### After the signal -/

/-- A loop that was stopped. It hears of nothing, and everyone who still waits was rung for. -/
structure Closing (l : Loop S) : Prop where
  manned : l.Manned
  state : l.state = .stopping
  closed : l.lobby.queue.closed = true
  rung : ∀ v ∈ l.lobby.waiters, v.ring.isSome = true
  own : l.own.active = false ∧ l.own.due = false
  arrived : l.arrived = []
  related : ∀ f, l.related = some f → f.active = false ∧ f.due = false
  concerned : l.concerned = []

theorem Serving.halt (h : l.Serving) (launched : l.launching = false) : l.halt.Closing := by
  have state : l.state = .running := by
    rcases h.state with state | state
    · unfold launching at launched
      rw [state] at launched
      cases launched
    · exact state
  unfold Loop.halt
  rw [state]
  refine ⟨⟨?_, nofun⟩, rfl, rfl, fun v hv => ?_, ⟨rfl, rfl⟩, rfl, fun f hf => ?_, rfl⟩
  · dsimp only
    rw [Lobby.seats_shutDown]
    exact h.manned.seats
  · obtain ⟨u, -, rfl⟩ := List.mem_map.1 hv
    cases u.ring <;> rfl
  · obtain ⟨g, -, rfl⟩ := Option.map_eq_some_iff.1 hf
    exact ⟨rfl, rfl⟩

theorem Closing.waiters_add (h : l.Closing) (k : Key) :
    (l.lobby.add k).waiters = l.lobby.waiters := by
  rw [Lobby.add_eq, Lobby.ringIf, if_neg (WorkQueue.not_add_joins h.closed)]

theorem Closing.waiters_done (h : l.Closing) (k : Key) :
    (l.lobby.done k).waiters = l.lobby.waiters := by
  rw [Lobby.done_eq, Lobby.ringIf, if_neg (WorkQueue.not_done_joins h.closed)]

theorem Closing.fire (h : l.Closing) (t : Timer) : (l.fire t).Closing := by
  refine ⟨h.manned.of_same (Lobby.seats_add _ _) rfl rfl, h.state, ?_, ?_, h.own, h.arrived,
    h.related, h.concerned⟩
  · rw [queue_fire, WorkQueue.closed_add]
    exact h.closed
  · have same : (l.fire t).lobby.waiters = l.lobby.waiters := h.waiters_add t.key
    rw [same]
    exact h.rung

theorem Closing.not_behind (h : l.Closing) :
    l.starting = false ∧ l.behind = false ∧ l.behindRelated = false := by
  have unread : l.related.any Feed.due = false := by
    cases related : l.related with
    | none => rfl
    | some f => exact (h.related f related).2
  refine ⟨?_, ?_, ?_⟩
  · unfold starting
    rw [h.state]
  · unfold behind
    rw [h.arrived, h.own.2]
    rfl
  · unfold behindRelated
    rw [h.concerned, unread]
    rfl

theorem length_timers_fire {t : Timer} (armed : t ∈ l.timers) :
    (l.fire t).timers.length < l.timers.length :=
  List.length_filter_lt_length_iff_exists.2 ⟨t, armed, by simp⟩

theorem Closing.leaves (h : l.Closing) (at_ : l.workers[i]? = some w)
    {r : Lobby.Looked × Lobby} (comes : Station.Comes l i w r) :
    r.1 = .closed ∧ r.2.queue.closed = true ∧ ∀ v ∈ r.2.waiters, v ∈ l.lobby.waiters := by
  cases comes with
  | free =>
    rw [Lobby.pop_of_closed (h.manned.absent at_ nofun) h.closed]
    exact ⟨rfl, h.closed, fun _ hv => hv⟩
  | rung =>
    have left : l.lobby.resume i = (.closed, { l.lobby.drop i with kept := false }) :=
      Lobby.pop_of_closed (Lobby.absent_drop _ i) h.closed
    rw [left]
    exact ⟨rfl, h.closed, fun _ hv => (Lobby.mem_drop.1 hv).1⟩

theorem Closing.rings (h : l.Closing) (waits : l.workers[i]? = some .waiting) :
    l.rung i = true := by
  obtain ⟨u, hu, same, -⟩ := Lobby.mem_seats.1 ((h.manned.seats i true).2 ⟨waits, rfl⟩)
  unfold Loop.rung
  cases found : l.lobby.find? i with
  | none => exact absurd same (by simpa using List.find?_eq_none.1 found u hu)
  | some v =>
    have inside := List.mem_of_find?_eq_some found
    have same : v.id = i := by simpa using List.find?_some found
    have suspended := ((h.manned.seats i v.suspended).1
      (Lobby.mem_seats.2 ⟨v, inside, same, rfl⟩)).2
    dsimp only
    rw [suspended, h.rung v inside]
    rfl

theorem Closing.able (h : l.Closing) {now : Nat} (busy : i ∈ l.busy now) :
    ∃ w, l.workers[i]? = some w ∧ l.Able now i w := by
  rcases mem_busy.1 busy with ⟨v, hv, suspended, -, same⟩ | ⟨w, at_, -, able⟩
  · have waits := ((h.manned.seats i true).1 (Lobby.mem_seats.2 ⟨v, hv, same, suspended⟩)).1
    exact ⟨_, waits, .rung (h.rings waits)⟩
  · exact ⟨w, at_, able⟩

theorem Closing.goes_on (h : l.Closing) (now : Nat) (idle : l.idle = false) :
    ∃ i later, now ≤ later ∧ i ∈ l.busy later := by
  obtain ⟨w, hw, going⟩ := List.all_eq_false.1 idle
  obtain ⟨i, at_⟩ := List.mem_iff_getElem?.1 hw
  cases w with
  | free => exact ⟨i, now, Nat.le_refl _, busy_of_able at_ .free⟩
  | waiting => exact ⟨i, now, Nat.le_refl _, busy_of_able at_ (.rung (h.rings at_))⟩
  | working => exact ⟨i, now, Nat.le_refl _, busy_of_able at_ .working⟩
  | asleep k p wake deadline =>
    exact ⟨i, max now wake, Nat.le_max_left _ _,
      busy_of_able at_ (.awake (.inl (Nat.le_max_right _ _)))⟩
  | ended => exact absurd rfl going

theorem Closing.works (h : l.Closing) (works : l.Works i l') :
    l'.Closing ∧ ∃ w w', l.workers[i]? = some w ∧ w'.Nearer w ∧
      l'.workers = l.workers.set i w' := by
  have manned := h.manned.works works
  cases works with
  | @looks w _ _ at_ comes _ =>
    obtain ⟨closed, shut, left⟩ := h.leaves at_ comes
    have looks : w = .free ∨ w = .waiting := by
      cases comes with
      | free => exact .inl rfl
      | rung => exact .inr rfl
    rw [closed] at manned ⊢
    exact ⟨⟨manned, h.state, shut, fun v hv => h.rung v (left v hv), h.own, h.arrived, h.related,
      h.concerned⟩, _, _, at_, .leaves looks, rfl⟩
  | goes at_ _ _ nearer =>
    exact ⟨⟨manned, h.state, h.closed, h.rung, h.own, h.arrived, h.related, h.concerned⟩, _, _,
      at_, nearer, rfl⟩
  | @finishes k r _ now rank at_ =>
    refine ⟨⟨manned, h.state, ?_, ?_, h.own, h.arrived, h.related, h.concerned⟩, _, _, at_, .ends,
      rfl⟩
    · rw [queue_finish, WorkQueue.closed_done]
      exact h.closed
    · have same : (l.finish i now rank k r).lobby.waiters = l.lobby.waiters := h.waiters_done k
      rw [same]
      exact h.rung

end Loop

end Tenancy
