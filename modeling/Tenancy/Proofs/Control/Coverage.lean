import Tenancy.Proofs.Control.Host
import Tenancy.Proofs.Reconcile.Dismissal
import Tenancy.Proofs.Store.Listing
import Tenancy.Proofs.Store.Quiet

/-! No object is forgotten. As long as a loop runs and keeps up with its feed, every object for
which there is something to do has its key in the queue or in work, or in a timer, or in a change
that was not taken in yet. Passes hand a key over to a timer, unless they know that nothing is left
to do. -/

namespace Tenancy.Station

variable {S : Type} {c c' : Station S} {k l : Key} {b : Belief}

/-- The key is queued, or will be with a change that is being handled or was not taken in yet. -/
def Due (c : Station S) (k : Key) : Prop :=
  k ∈ c.loop.lobby.queue.dirty ∨ k ∈ c.loop.arrived ∨
    ∃ x ∈ c.loop.own.backlog, x.generationChanged = true ∧ x.key = k

def Kept (c : Station S) (k : Key) : Prop :=
  k ∈ c.loop.lobby.queue.processing ∨ ∃ t ∈ c.loop.timers, t.key = k

variable [ResourceKind S]

/-- What is believed of the key holds, or the key is due. -/
def Sure (c : Station S) (k : Key) (b : Belief) : Prop := b.Holds k c.store ∨ c.Due k

/-- Every pass has grounds to dismiss its key if it does so, and there is nothing to do for the
objects of keys that are neither due nor kept. -/
structure Sound (c : Station S) : Prop where
  passes : ∀ (i : Nat) k p, c.loop.jobs[i]? = some (some (k, p)) →
    ∃ b, Pass.Heeds k p Pass.Dismisses b ∧ c.Sure k b
  objects : ∀ k, c.Sure k .released ∨ c.Kept k

/-- The feed has room for the changes of a step, and no client gives a marked object the finalizer
of its kind. -/
def Fair (c : Station S) (d : Deed S) (c' : Station S) : Prop :=
  (c'.store ≠ c.store → c.loop.own.backlog.length < Feed.capacity) ∧
  ∀ w, d = .client w → ∀ k o, c.store.get? k = some o → o.wasDeleted = true →
    ¬w.Adds o (ResourceKind.finalizer S)

theorem Sound.of_due (h : c.Sound) (jobs : c'.loop.jobs = c.loop.jobs)
    (sure : ∀ k b, c.Sure k b → c'.Sure k b) (kept : ∀ k, c.Kept k → c'.Due k ∨ c'.Kept k) :
    c'.Sound := by
  refine ⟨fun i k p at_ => ?_, fun k => ?_⟩
  · rw [jobs] at at_
    obtain ⟨b, heeds, known⟩ := h.passes i k p at_
    exact ⟨b, heeds, sure k b known⟩
  · rcases h.objects k with known | held
    · exact .inl (sure k .released known)
    · exact (kept k held).imp_left Or.inr

theorem Sound.grow (h : c.Sound) (store : c'.store = c.store) (jobs : c'.loop.jobs = c.loop.jobs)
    (processing : c'.loop.lobby.queue.processing = c.loop.lobby.queue.processing)
    (timers : c'.loop.timers = c.loop.timers) (due : ∀ k, c.Due k → c'.Due k) : c'.Sound := by
  refine h.of_due jobs (fun k b => ?_) fun k kept => .inr ?_
  · rw [Sure, Sure, store]
    exact Or.imp_right (due k)
  · rwa [Kept, processing, timers]

theorem Sound.setJob (h : c.Sound) {i : Nat} {p : Pass S Outcome}
    (jobs : c'.loop.jobs = c.loop.jobs.set i (some (k, p)))
    (heeds : ∃ b, Pass.Heeds k p Pass.Dismisses b ∧ c'.Sure k b)
    (others : ∀ l b, (∃ j q, j ≠ i ∧ c.loop.jobs[j]? = some (some (l, q))) →
      c.Sure l b → c'.Sure l b)
    (objects : ∀ k, c'.Sure k .released ∨ c'.Kept k) : c'.Sound := by
  refine ⟨fun j l q at_ => ?_, objects⟩
  rw [jobs] at at_
  rcases Roster.of_set at_ with ⟨-, he⟩ | ⟨hj, at_⟩
  · cases he
    exact heeds
  · obtain ⟨b, heeds, known⟩ := h.passes j l q at_
    exact ⟨b, heeds, others l b ⟨j, q, hj.symm, at_⟩ known⟩

/-! ### Writes -/

section

variable {w : Write S} (tidy : c.Tidy) (state : c.loop.state = .running)
  (room : (c.write w).store ≠ c.store → c.loop.own.backlog.length < Feed.capacity)
include tidy state room

theorem backlog_write :
    (c.write w).loop.own.backlog = c.loop.own.backlog ++ (c.store.write w).change.toList := by
  obtain ⟨active, byHand, -⟩ := tidy.listening (.inr state)
  have heard : (c.write w).loop.own = ((c.store.write w).change).elim c.loop.own
      c.loop.own.publish := rfl
  rw [heard]
  cases hx : (c.store.write w).change with
  | none => exact (List.append_nil _).symm
  | some x =>
    have changed := Store.write_ne tidy.keyed (by rw [hx]; exact Option.some_ne_none x)
    exact Feed.backlog_publish active byHand (room changed) x

theorem due_write (h : c.Due k) : (c.write w).Due k := by
  refine h.imp_right (Or.imp_right ?_)
  rintro ⟨x, hx, loud⟩
  rw [backlog_write tidy state room]
  exact ⟨x, List.mem_append_left _ hx, loud⟩

theorem sure_write (keeps : ∀ o, c.store.get? k = some o → o.wasDeleted = true →
    ¬w.Adds o (ResourceKind.finalizer S)) (h : c.Sure k b) : (c.write w).Sure k b := by
  rcases h with h | h
  swap
  · exact .inr (due_write tidy state room h)
  by_cases fresh : ∃ o, (c.store.write w).change = some (.created o) ∧ o.key = k
  · obtain ⟨o, created, key⟩ := fresh
    refine .inr (.inr (.inr ⟨.created o, ?_, rfl, key⟩))
    rw [backlog_write tidy state room, created]
    exact List.mem_append_right _ (List.mem_singleton_self _)
  · refine .inl (h.effect (c.store.effect_write w) tidy.keyed (fun o created key => ?_) keeps)
    exact fresh ⟨o, created, key⟩

end

/-! ### Questions of passes -/

theorem sure_answered (tidy : c.Tidy) (state : c.loop.state = .running) {q : Request S}
    {r : q.Answer} (answered : Answered c q r c')
    (room : c'.store ≠ c.store → c.loop.own.backlog.length < Feed.capacity) (minds : q.Minds k)
    (h : c.Sure k b) :
    c'.Sure k (b.learn q r) ∧ ∀ l b, l ≠ k → c.Sure l b → c'.Sure l b := by
  -- a pass gives finalizers to the object of its own key only
  have other {o : Resource S} (ho : o.key = k) {l : Key} (hl : l ≠ k) (x : Resource S)
      (stored : c.store.get? l = some x) : ¬(Write.update o).Adds x (ResourceKind.finalizer S) := by
    rintro ⟨_, ⟨⟩, key, -⟩
    exact hl ((tidy.keyed l x stored).symm.trans (key.symm.trans ho))
  cases answered with
  | get key =>
    cases minds
    exact ⟨h.imp_left fun _ => Belief.holds_get b c.store k, fun _ _ _ => id⟩
  | update o =>
    cases minds
    refine ⟨?_, fun l b hl => sure_write tidy state room fun x stored _ => other rfl hl x stored⟩
    exact h.imp Belief.holds_update (due_write tidy state room)
  | updateStatus o =>
    have sure (l : Key) (b : Belief) : c.Sure l b → (c.write (.updateStatus o)).Sure l b := by
      refine sure_write tidy state room fun x _ _ => ?_
      rintro ⟨_, ⟨⟩, -⟩
    exact ⟨sure k b h, fun l b _ => sure l b⟩
  | clock | organizations | nextDelay | forget | sleep | entered => exact ⟨h, fun _ _ _ => id⟩

/-! ### Steps -/

theorem Sound.client (h : c.Sound) (tidy : c.Tidy) (state : c.loop.state = .running) {w : Write S}
    (fair : Fair c (.client w) (c.write w)) : (c.write w).Sound :=
  h.of_due rfl (fun k _ => sure_write tidy state fair.1 (fair.2 w rfl k)) fun _ => Or.inr

theorem Sound.takeOwn (h : c.Sound) (free : c.loop.arrived = []) :
    Sound { c with loop := c.loop.takeOwn } := by
  rw [Loop.takeOwn_eq _ free]
  refine h.grow rfl rfl rfl rfl fun k due => ?_
  rcases due with dirty | arrived | ⟨x, hx, loud, key⟩
  · exact .inl dirty
  · rw [free] at arrived
    cases arrived
  cases backlog : c.loop.own.backlog with
  | nil => simp [backlog] at hx
  | cons y ys =>
    rw [backlog, List.mem_cons] at hx
    rcases hx with rfl | hx
    · -- the change that is taken in has every key that it is about
      refine .inr (.inl ?_)
      dsimp only [Loop.news]
      rw [backlog]
      dsimp only
      rw [if_pos loud]
      exact List.mem_map.2 ⟨x.latest, x.latest_mem_objects, key⟩
    · refine .inr (.inr ⟨x, ?_, loud, key⟩)
      dsimp only [Feed.take]
      rwa [backlog, List.tail_cons]

theorem Sound.enqueue (h : c.Sound) (tidy : c.Tidy) (state : c.loop.state = .running)
    {arrived : List Key} (queued : ∀ x ∈ c.loop.arrived, x ∈ arrived ∨ x = k)
    (related : Option (Feed OrganizationSpec)) (concerned : List Key) :
    Sound { c with loop := { c.loop with arrived, related, concerned }.enqueue k } := by
  obtain ⟨-, -, open_⟩ := tidy.listening (.inr state)
  have queue := Lobby.queue_add c.loop.lobby k
  refine h.grow rfl rfl ?_ rfl fun l due => ?_
  · exact (congrArg _ queue).trans (WorkQueue.processing_add _ k)
  have dirty (hl : l ∈ c.loop.lobby.queue.dirty ∨ l = k) :
      l ∈ (c.loop.lobby.add k).queue.dirty := by
    rw [queue, WorkQueue.mem_dirty_add]
    exact hl.imp_right fun hl => ⟨open_, hl⟩
  rcases due with queued' | arrived | waits
  · exact .inl (dirty (.inl queued'))
  · rcases queued l arrived with arrived | same
    · exact .inr (.inl arrived)
    · exact .inl (dirty (.inr same))
  · exact .inr (.inr waits)

theorem sound_launch (tidy : c.Tidy) (state : c.loop.state = .launching) :
    Sound { c with loop := c.loop.launch (.ok c.store.list) } := by
  obtain ⟨-, -, open_⟩ := tidy.listening (.inl state)
  rw [Loop.launch_eq]
  refine ⟨fun i k p at_ => ?_, fun k => .inl ?_⟩
  · rw [Loop.jobs, List.map_replicate, List.getElem?_replicate] at at_
    split at at_ <;> cases at_
  · cases stored : c.store.get? k with
    | none => exact .inl (.of_absent stored)
    | some o =>
      refine .inr (.inl ?_)
      have key := tidy.keyed k o stored
      dsimp only
      rw [Loop.queue_enqueueAll]
      refine (WorkQueue.mem_dirty_addAll open_).2 (.inr (List.mem_map.2 ⟨o, ?_, key⟩))
      exact (Store.mem_list tidy.keyed).2 (key ▸ stored)

theorem Sound.fire (h : c.Sound) (tidy : c.Tidy) (state : c.loop.state = .running) {t : Timer}
    (armed : t ∈ c.loop.timers) : Sound { c with loop := c.loop.fire t } := by
  obtain ⟨-, -, open_⟩ := tidy.listening (.inr state)
  have queue := c.loop.queue_fire t
  have dirty (k : Key) (hk : k ∈ c.loop.lobby.queue.dirty ∨ k = t.key) :
      k ∈ (c.loop.fire t).lobby.queue.dirty := by
    rw [queue, WorkQueue.mem_dirty_add]
    exact hk.imp_right fun hk => ⟨open_, hk⟩
  refine h.of_due rfl (fun k b => Or.imp_right (Or.imp_left fun hk => dirty k (.inl hk))) ?_
  rintro k (held | ⟨u, hu, key⟩)
  · refine .inr (.inl ?_)
    dsimp only
    rwa [queue, WorkQueue.processing_add]
  · by_cases same : u.rank = t.rank
    · -- the timer itself adds its key
      have same := tidy.distinct u hu t armed same
      exact .inl (.inl (dirty k (.inr (same ▸ key.symm))))
    · exact .inr (.inr ⟨u, List.mem_filter.2 ⟨hu, by simpa using same⟩, key⟩)

theorem Sound.look (h : c.Sound) (tidy : c.Tidy) {i : Nat} {w : Worker S}
    {r : Lobby.Looked × Lobby} (at_ : c.loop.workers[i]? = some w) (comes : Comes c.loop i w r) :
    Sound { c with loop := { c.loop with lobby := r.2 }.looked i c.beginPass r.1 } := by
  have jobs := comes.jobs at_ c.beginPass
  rw [looked_eq] at jobs ⊢
  rcases jobs with ⟨k, -, next, jobs⟩ | ⟨-, queue, jobs⟩
  · obtain ⟨-, -, -, dirty, processing⟩ := WorkQueue.pop_key next
    have sure (l : Key) (b : Belief) (hl : l ≠ k) (known : c.Sure l b) :
        Sure { c with loop := { c.loop with
          lobby := r.2
          workers := ({ c.loop with lobby := r.2 }.looked i c.beginPass r.1).workers } } l b :=
      known.imp_right (Or.imp_left fun hd => (dirty l).2 ⟨hd, hl⟩)
    refine h.setJob jobs ⟨.vague, Pass.heeds_run _ _ k, .inl trivial⟩ ?_ fun l => ?_
    · rintro l b ⟨j, q, -, at_⟩
      refine sure l b ?_
      rintro rfl
      exact tidy.roster.idle_of_pop next j q at_
    · by_cases hl : l = k
      · exact .inr (.inl ((processing l).2 (.inr hl)))
      · rcases h.objects l with known | held | timer
        · exact .inl (sure l .released hl known)
        · exact .inr (.inl ((processing l).2 (.inl held)))
        · exact .inr (.inr timer)
  · refine h.of_due jobs (fun k b => Or.imp_right (Or.imp_left fun hk => ?_)) fun k => ?_
    · dsimp only
      rwa [queue]
    · refine fun kept => .inr (kept.imp_left fun held => ?_)
      dsimp only
      rwa [queue]

theorem Answered.apt {q : Request S} {r : q.Answer} (answered : Answered c q r c')
    (keyed : c.store.Keyed) : q.Apt r := by
  have answers : q.Answers c.store r := by cases answered <;> trivial
  exact answers.apt keyed

theorem kept_answered {q : Request S} {r : q.Answer} (answered : Answered c q r c') (i : Nat)
    (w : Worker S) (h : c.Kept l) : (c'.setWorker i w).Kept l := by
  cases answered <;> exact h

/-- A pass that has run out of time comes back, so it need not know anything. -/
theorem heeds_expired (k : Key) (loop : Loop S) :
    Pass.Heeds k (Cluster.expired loop) Pass.Dismisses .vague :=
  nofun

theorem Sound.ask (h : c.Sound) (tidy : c.Tidy) (state : c.loop.state = .running)
    {i deadline : Nat} {q : Request S} {next : q.Answer → Pass S Outcome} {r : q.Answer}
    {w : Worker S} {p : Pass S Outcome}
    (at_ : c.loop.workers[i]? = some (.working k (.ask q next) deadline))
    (answered : Answered c q r c') (goesOn : p = next r ∨ p = Cluster.expired c.loop)
    (job : w.job? = some (k, p))
    (room : c'.store ≠ c.store → c.loop.own.backlog.length < Feed.capacity) :
    (c'.setWorker i w).Sound := by
  have had := Loop.getElem?_jobs at_
  obtain ⟨b, ⟨minds, goes⟩, known⟩ := h.passes i k _ had
  obtain ⟨learned, others⟩ := sure_answered tidy state answered room minds known
  have jobs : (c'.setWorker i w).loop.jobs = c.loop.jobs.set i (some (k, p)) := by
    rw [setWorker, Loop.jobs_setWorker, (tidy.answered answered).2, job]
  refine h.setJob jobs ?_ ?_ fun l => ?_
  · rcases goesOn with rfl | rfl
    · exact ⟨_, goes r _ ⟨answered.apt tidy.keyed, rfl⟩, learned⟩
    · exact ⟨.vague, heeds_expired k c.loop, .inl trivial⟩
  · rintro l b ⟨j, p, hj, has⟩
    refine others l b ?_
    rintro rfl
    exact hj (tidy.roster.unique j i l p _ has had)
  · by_cases hl : l = k
    · subst hl
      have kept : c.Kept l := .inl (tidy.roster.held i l _ had)
      exact .inr (kept_answered answered i w kept)
    · exact (h.objects l).imp (others l .released hl) (kept_answered answered i w)

theorem Sound.expire (h : c.Sound) (i : Nat) (k : Key) (deadline : Nat) :
    (c.setWorker i (.working k (Cluster.expired c.loop) deadline)).Sound :=
  h.setJob (Loop.jobs_setWorker _ _ _) ⟨.vague, heeds_expired k c.loop, .inl trivial⟩
    (fun _ _ _ => id) h.objects

/-- The key of a pass that has ended goes to a timer, or there is nothing left to do for it. -/
theorem Sound.finish (h : c.Sound) {i deadline : Nat} {r : Outcome}
    (at_ : c.loop.workers[i]? = some (.working k (.done r) deadline)) :
    Sound ⟨c.store, c.loop.finish i c.now c.rank k r, c.now, c.rank + 1⟩ := by
  have sure (l : Key) (b : Belief) (known : c.Sure l b) :
      Sure ⟨c.store, c.loop.finish i c.now c.rank k r, c.now, c.rank + 1⟩ l b := by
    refine known.imp_right (Or.imp_left fun hl => ?_)
    dsimp only
    rwa [Loop.queue_finish, WorkQueue.dirty_done]
  refine ⟨fun j l p has => ?_, fun l => ?_⟩
  · rw [Loop.jobs_finish] at has
    rcases Roster.of_set has with ⟨-, he⟩ | ⟨-, has⟩
    · cases he
    · obtain ⟨b, heeds, known⟩ := h.passes j l p has
      exact ⟨b, heeds, sure l b known⟩
  · by_cases hl : l = k
    · subst hl
      obtain ⟨b, dismisses, known⟩ := h.passes i l _ (Loop.getElem?_jobs at_)
      cases hw : r.wait? c.loop.settings.errorBackoff with
      | none =>
        have gone : r = .ok none := by
          cases r with
          | error e => cases hw
          | ok wait =>
            cases hw
            rfl
        cases dismisses gone
        exact .inl (sure l .released known)
      | some d => exact .inr (.inr ⟨_, mem_timers_finish.2 (.inr ⟨d, hw, rfl⟩), rfl⟩)
    · refine (h.objects l).imp (sure l .released) ?_
      rintro (held | ⟨t, ht, key⟩)
      · refine .inl ?_
        dsimp only
        rw [Loop.queue_finish]
        exact WorkQueue.mem_processing_done.2 ⟨held, hl⟩
      · exact .inr ⟨t, mem_timers_finish.2 (.inl ht), key⟩

theorem Sound.step {d : Deed S} (h : c.Sound) (tidy : c.Tidy) (state : c.loop.state = .running)
    (state' : c'.loop.state = .running) (step : Step c d c') (fair : Fair c d c') : c'.Sound := by
  cases step with
  | client w => exact h.client tidy state fair
  | elapse => exact h.grow rfl rfl rfl rfl fun _ => id
  | concern related concerned =>
    exact h.enqueue tidy state (fun _ => Or.inl) related concerned
  | takeOwn free => exact h.takeOwn free
  | @arrive k ks next =>
    rw [Loop.enqueueArrived_eq _ next]
    refine h.enqueue tidy state (fun x hx => ?_) c.loop.related c.loop.concerned
    rw [next, List.mem_cons] at hx
    exact hx.symm
  | launch launching => cases launching.symm.trans state
  | halt =>
    unfold Loop.halt at state'
    rw [state] at state'
    cases state'
  | fire armed => exact h.fire tidy state armed
  | look at_ comes => exact h.look tidy at_ comes
  | ask at_ answered goesOn job => exact h.ask tidy state at_ answered goesOn job fair.1
  | wake at_ same =>
    exact h.grow rfl (Loop.jobs_setWorker_same at_ same) rfl rfl fun _ => id
  | expire => exact h.expire _ _ _
  | finish at_ => exact h.finish at_

/-! ### Runs -/

theorem Step.launches {d : Deed S} (step : Step c d c') (state' : c'.loop.state = .running) :
    c.loop.state = .running ∨ c.loop.state = .launching ∧
      c' = { c with loop := c.loop.launch (.ok c.store.list) } := by
  cases step with
  | launch launching => exact .inr ⟨launching, rfl⟩
  | halt =>
    unfold Loop.halt at state'
    split at state'
    · cases state'
    · exact .inl state'
    · exact .inl state'
  | takeOwn free =>
    rw [Loop.takeOwn_eq _ free] at state'
    exact .inl state'
  | arrive next =>
    rw [Loop.enqueueArrived_eq _ next] at state'
    exact .inl state'
  | look =>
    rw [looked_eq] at state'
    exact .inl state'
  | ask _ answered =>
    refine .inl ?_
    cases answered <;> exact state'
  | client | elapse | concern | fire | wake | expire | finish => exact .inl state'

theorem Run.sound {tr : List (Nat × Deed S)} (run : Run Fair c tr c') (tidy : c.Tidy)
    (launching : c.loop.state = .launching) (state : c'.loop.state = .running) : c'.Sound := by
  induction run with
  | here => cases launching.symm.trans state
  | step run step fair ih =>
    have order := run.tidy tidy
    rcases step.launches state with running | ⟨launching', rfl⟩
    · exact (ih running).step order running state step fair
    · exact sound_launch order launching'

/-- While a loop runs, the key of every object that is not marked, or that still has the finalizer
of its kind, is dirty, or in work, or in a timer, or still to be queued with the change that is
being handled, or that of a change which will be taken in. -/
theorem no_object_forgotten {settings : Settings} {timing : Timing} {logic : Logic S}
    {withRelated : Bool} {store : Store S} {now rank : Nat} {tr : List (Nat × Deed S)}
    (keyed : store.Keyed)
    (run : Run Fair (start settings timing logic withRelated store now rank) tr c)
    (running : c.loop.state = .running) {o : Resource S} (stored : c.store.get? k = some o)
    (needy : o.wasDeleted = false ∨ o.hasOwnFinalizer = true) :
    k ∈ c.loop.lobby.queue.dirty ∨ k ∈ c.loop.lobby.queue.processing ∨
      (∃ t ∈ c.loop.timers, t.key = k) ∨ k ∈ c.loop.arrived ∨
      ∃ x ∈ c.loop.own.backlog, x.generationChanged = true ∧ x.key = k := by
  have sound := run.sound (tidy_start settings timing logic withRelated keyed now rank) rfl running
  rcases sound.objects k with (idle | dirty | waits) | held | timer
  · exact absurd needy (idle o stored)
  · exact .inl dirty
  · exact .inr (.inr (.inr waits))
  · exact .inr (.inl held)
  · exact .inr (.inr (.inl timer))

/-! ### A play -/

def fairly {S : Type} (l : Loop S) : Deed S → Bool
  | .client (.update _) => false
  | _ => l.own.backlog.length < Feed.capacity

theorem fair_of_fairly {d : Deed S} (h : fairly c.loop d = true) : Fair c d c' := by
  unfold fairly at h
  split at h
  · cases h
  · rename_i quiet
    refine ⟨fun _ => of_decide_eq_true h, ?_⟩
    rintro w rfl k o stored mark ⟨x, rfl, -⟩
    exact quiet x rfl

def reborn : List Cluster.Move :=
  let work : Cluster.Move := .task (.work .organization 0)
  [.organization (.create (.new "" "a")), .task (.launch .organization),
    .task (.takeOwn .organization), .task (.takeOwn .organization),
    .organization (.delete ⟨"", "a"⟩), work, work, .organization (.create (.new "" "a")), work]

/-- Only a change that is still to be taken in keeps the key of the new organization. -/
theorem no_object_forgotten_reborn :
    ∃ (tr : List (Nat × Deed OrganizationSpec)) (c : Station OrganizationSpec) (o : Organization),
      Store.Keyed (S := OrganizationSpec) .empty ∧
      Run Fair (start .default .native Organization.logic false .empty 0 0) tr c ∧
      c.loop.state = .running ∧ c.store.get? ⟨"", "a"⟩ = some o ∧
      (o.wasDeleted = false ∨ o.hasOwnFinalizer = true) ∧
      ∃ x ∈ c.loop.own.backlog, x.generationChanged = true ∧ x.key = ⟨"", "a"⟩ := by
  have played : (Cluster.play Cluster.orgDeed fairly reborn
      (Cluster.vacant OrganizationSpec .default false, [])).any (fun q =>
        (q.1.host? OrganizationSpec).any fun c =>
          c.loop.running && (c.store.get? ⟨"", "a"⟩).any (!·.wasDeleted) &&
          !c.loop.lobby.queue.dirty.contains ⟨"", "a"⟩ &&
          !c.loop.lobby.queue.processing.contains ⟨"", "a"⟩ && c.loop.timers.isEmpty &&
          c.loop.arrived.isEmpty) = true := by
    decide +kernel
  obtain ⟨⟨s, tr⟩, made, known⟩ := (Option.any_eq_true _ _).1 played
  obtain ⟨-, c, here, run⟩ :=
    Cluster.run_of_play_orgs ⟨rfl, rfl⟩ rfl (fun _ _ _ => fair_of_fairly) made
  rw [here, Option.any_some] at known
  simp only [Bool.and_eq_true, Bool.not_eq_true'] at known
  obtain ⟨⟨⟨⟨⟨running, found⟩, clean⟩, idle⟩, timers⟩, free⟩ := known
  have running := Loop.state_of_running running
  obtain ⟨o, stored, live⟩ := (Option.any_eq_true _ _).1 found
  have needy : o.wasDeleted = false ∨ o.hasOwnFinalizer = true := .inl (by simpa using live)
  refine ⟨tr, c, o, Store.keyed_empty, run, running, stored, needy, ?_⟩
  rcases no_object_forgotten Store.keyed_empty run running stored needy with
    dirty | held | ⟨t, ht, -⟩ | arrived | waits
  · rw [Std.ExtTreeSet.mem_iff_contains, clean] at dirty
    cases dirty
  · rw [Std.ExtTreeSet.mem_iff_contains, idle] at held
    cases held
  · rw [List.isEmpty_iff.1 timers] at ht
    cases ht
  · rw [List.isEmpty_iff.1 free] at arrived
    cases arrived
  · exact waits

end Tenancy.Station
