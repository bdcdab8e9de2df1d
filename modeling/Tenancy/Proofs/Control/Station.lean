import Tenancy.Control.Cluster
import Tenancy.Proofs.Control.Crew
import Tenancy.Proofs.Queue.Roster
import Tenancy.Proofs.Store.Effect

/-! A loop at the store of its kind, with any logic and any number of workers. Clients and passes
write, changes are taken in, timers go off and passes go on, in any order; time passes, and of what
lies outside nothing is known. -/

namespace Tenancy

/-- A loop and its store. Others share the time and the count of timers. -/
structure Station (S : Type) where
  store : Store S
  loop : Loop S
  now : Nat
  rank : Nat

inductive Deed (S : Type) where
  | rest
  | client (w : Write S)
  /-- Keys are queued for the first time: one of a change or a related one, or the whole listing. -/
  | added (ks : List Key)
  | fired (t : Timer)
  | began (k : Key)
  | asked (k : Key) (q : Request S)
  | ended (k : Key) (r : Outcome)

def Lobby.Looked.deed (S : Type) : Lobby.Looked → Deed S
  | .key k => .began k
  | .closed | .again | .suspended => .rest

namespace Station

variable {S : Type}

def start (settings : Settings) (timing : Timing) (logic : Logic S) (withRelated : Bool)
    (store : Store S) (now rank : Nat) : Station S :=
  ⟨store, .new settings timing logic false withRelated, now, rank⟩

def setWorker (c : Station S) (i : Nat) (w : Worker S) : Station S :=
  { c with loop := c.loop.setWorker i w }

def paced (c : Station S) (pacer : Pacer) : Station S := { c with loop := { c.loop with pacer } }

inductive Comes (l : Loop S) (i : Nat) : Worker S → Lobby.Looked × Lobby → Prop
  | free : Comes l i .free (l.lobby.pop i)
  | rung (h : l.rung i = true) : Comes l i .waiting (l.lobby.resume i)

/-- Objects are stored under their keys, workers keep to the queue, and no two timers are the same.
A loop that was not stopped hears of every change and takes every key. -/
structure Tidy (c : Station S) : Prop where
  keyed : c.store.Keyed
  roster : Roster c.loop.lobby.queue c.loop.jobs
  drawn : ∀ t ∈ c.loop.timers, t.rank < c.rank
  distinct : ∀ t ∈ c.loop.timers, ∀ u ∈ c.loop.timers, t.rank = u.rank → t = u
  listening : c.loop.state = .launching ∨ c.loop.state = .running →
    c.loop.own.active = true ∧ c.loop.own.byHand = false ∧ c.loop.lobby.queue.closed = false

section

variable {c : Station S} {i deadline : Nat} {w : Worker S} {k : Key} {r : Outcome}
  {looked : Lobby.Looked × Lobby}

theorem tidy_start (settings : Settings) (timing : Timing) (logic : Logic S) (withRelated : Bool)
    {store : Store S} (keyed : store.Keyed) (now rank : Nat) :
    (start settings timing logic withRelated store now rank).Tidy := by
  refine ⟨keyed, .of_free .empty fun i x => ?_, nofun, nofun, fun _ => ⟨rfl, rfl, rfl⟩⟩
  have none : (start settings timing logic withRelated store now rank).loop.jobs[i]? = none :=
    List.getElem?_nil
  rw [none]
  exact nofun

theorem Tidy.of_loop (h : c.Tidy) {l : Loop S} (roster : Roster l.lobby.queue l.jobs)
    (timers : ∀ t ∈ l.timers, t ∈ c.loop.timers)
    (listening : l.state = .launching ∨ l.state = .running →
      l.own.active = true ∧ l.own.byHand = false ∧ l.lobby.queue.closed = false) :
    Tidy { c with loop := l } :=
  ⟨h.keyed, roster, fun t ht => h.drawn t (timers t ht),
    fun t ht u hu => h.distinct t (timers t ht) u (timers u hu), listening⟩

theorem Tidy.enqueueAll (h : c.Tidy) (ks : List Key) :
    Roster (c.loop.enqueueAll ks).lobby.queue c.loop.jobs ∧
      (c.loop.enqueueAll ks).lobby.queue.closed = c.loop.lobby.queue.closed := by
  rw [Loop.queue_enqueueAll]
  exact ⟨h.roster.of_queue (h.roster.queue.addAll ks) (WorkQueue.processing_addAll _ _),
    WorkQueue.closed_addAll _ _⟩

theorem Tidy.setWorker (h : c.Tidy)
    (roster : Roster c.loop.lobby.queue (c.loop.jobs.set i w.job?)) : (c.setWorker i w).Tidy := by
  refine h.of_loop ?_ (fun _ ht => ht) h.listening
  rw [Loop.jobs_setWorker]
  exact roster

theorem Tidy.takeOwn (h : c.Tidy) (free : c.loop.arrived = []) :
    Tidy { c with loop := c.loop.takeOwn } := by
  rw [Loop.takeOwn_eq _ free]
  exact h.of_loop h.roster (fun _ ht => ht) h.listening

theorem Tidy.enqueue (h : c.Tidy) (k : Key) (arrived : List Key)
    (related : Option (Feed OrganizationSpec)) (concerned : List Key) :
    Tidy { c with loop := { c.loop with arrived, related, concerned }.enqueue k } := by
  obtain ⟨roster, closed⟩ := h.enqueueAll [k]
  refine h.of_loop roster (fun _ ht => ht) fun state => ?_
  obtain ⟨active, byHand, open_⟩ := h.listening state
  exact ⟨active, byHand, closed.trans open_⟩

theorem Tidy.launch (h : c.Tidy) (state : c.loop.state = .launching) (os : List (Resource S)) :
    Tidy { c with loop := c.loop.launch (.ok os) } := by
  obtain ⟨roster, closed⟩ := h.enqueueAll (os.map (·.key))
  obtain ⟨active, byHand, open_⟩ := h.listening (.inl state)
  rw [Loop.launch_eq]
  refine h.of_loop (.of_free roster.queue fun i x at_ => ?_) (fun _ ht => ht)
    fun _ => ⟨active, byHand, closed.trans open_⟩
  -- no worker has begun yet
  rw [Loop.jobs, List.map_replicate, List.getElem?_replicate] at at_
  split at at_ <;> cases at_

theorem Tidy.halt (h : c.Tidy) : Tidy { c with loop := c.loop.halt } := by
  unfold Loop.halt
  split
  · -- what was in work stays there
    refine h.of_loop ?_ (fun _ ht => ht) nofun
    exact h.roster.of_queue (.shutDown _) rfl
  · exact h.of_loop h.roster (fun _ ht => ht) h.listening
  · exact h

theorem Tidy.fire (h : c.Tidy) (t : Timer) : Tidy { c with loop := c.loop.fire t } := by
  refine h.of_loop ?_ (fun u hu => (List.mem_filter.1 hu).1) fun state => ?_
  · rw [Loop.queue_fire]
    exact h.roster.of_queue (h.roster.queue.add t.key) (WorkQueue.processing_add _ _)
  · rw [Loop.queue_fire, WorkQueue.closed_add]
    exact h.listening state

theorem mem_timers_finish {l : Loop S} {now rank : Nat} {t : Timer} :
    t ∈ (l.finish i now rank k r).timers ↔ t ∈ l.timers ∨
      ∃ d, r.wait? l.settings.errorBackoff = some d ∧ t = ⟨now + l.timing.wait now d, rank, k⟩ := by
  rw [Loop.timers_finish, List.mem_append]
  cases r.wait? l.settings.errorBackoff <;> simp

theorem Tidy.finish (h : c.Tidy)
    (at_ : c.loop.workers[i]? = some (.working k (.done r) deadline)) :
    Tidy ⟨c.store, c.loop.finish i c.now c.rank k r, c.now, c.rank + 1⟩ := by
  refine ⟨h.keyed, ?_, fun t ht => ?_, fun t ht u hu same => ?_, fun state => ?_⟩
  · rw [Loop.queue_finish, Loop.jobs_finish]
    exact h.roster.finish (Loop.getElem?_jobs at_)
  · rcases mem_timers_finish.1 ht with ht | ⟨d, -, rfl⟩
    · exact Nat.lt_succ_of_lt (h.drawn t ht)
    · exact Nat.lt_succ_self _
  · -- the rank of the new timer is above all others
    rcases mem_timers_finish.1 ht with ht | ⟨d, hd, rfl⟩
    · rcases mem_timers_finish.1 hu with hu | ⟨e, he, rfl⟩
      · exact h.distinct t ht u hu same
      · exact absurd same (Nat.ne_of_lt (h.drawn t ht))
    · rcases mem_timers_finish.1 hu with hu | ⟨e, he, rfl⟩
      · exact absurd same.symm (Nat.ne_of_lt (h.drawn u hu))
      · rw [Option.some.inj (hd.symm.trans he)]
  · rw [Loop.queue_finish, WorkQueue.closed_done]
    exact h.listening state

theorem Comes.served {l : Loop S} (h : Comes l i w looked) :
    Lobby.Served l.lobby.queue looked ∧ w.job? = none := by
  cases h with
  | free => exact ⟨Lobby.served_pop l.lobby i, rfl⟩
  | rung => exact ⟨Lobby.served_resume l.lobby i, rfl⟩

theorem looked_eq (l : Loop S) (i : Nat) (begin_ : Key → Worker S) (r : Lobby.Looked × Lobby) :
    { l with lobby := r.2 }.looked i begin_ r.1 = { l with
      lobby := r.2, workers := ({ l with lobby := r.2 }.looked i begin_ r.1).workers } := by
  obtain ⟨looked, lobby⟩ := r
  cases looked <;> rfl

theorem Comes.jobs {l : Loop S} (comes : Comes l i w looked) (at_ : l.workers[i]? = some w)
    (begin_ : Key → Worker S) :
    (∃ k, looked.1 = .key k ∧ l.lobby.queue.pop = (.key k, looked.2.queue) ∧
      ({ l with lobby := looked.2 }.looked i begin_ looked.1).jobs =
        l.jobs.set i (begin_ k).job?) ∨
    looked.1.deed S = .rest ∧ looked.2.queue = l.lobby.queue ∧
      ({ l with lobby := looked.2 }.looked i begin_ looked.1).jobs = l.jobs := by
  obtain ⟨served, idle⟩ := comes.served
  obtain ⟨looked, lobby⟩ := looked
  cases looked with
  | key k => exact .inl ⟨k, rfl, served.1 k rfl, Loop.jobs_setWorker _ i (begin_ k)⟩
  | again => exact .inr ⟨rfl, served.2 nofun, rfl⟩
  | closed | suspended =>
    exact .inr ⟨rfl, served.2 nofun, Loop.jobs_setWorker_same at_ idle.symm⟩

theorem Tidy.look (h : c.Tidy) (at_ : c.loop.workers[i]? = some w)
    (comes : Comes c.loop i w looked) {begin_ : Key → Worker S} {pass : Key → Pass S Outcome}
    (begins : ∀ k, (begin_ k).job? = some (k, pass k)) :
    Tidy { c with loop := { c.loop with lobby := looked.2 }.looked i begin_ looked.1 } := by
  have jobs := comes.jobs at_ begin_
  rw [looked_eq] at jobs ⊢
  rcases jobs with ⟨k, -, next, jobs⟩ | ⟨-, queue, jobs⟩
  · obtain ⟨-, open_, -⟩ := WorkQueue.pop_key next
    refine h.of_loop ?_ (fun _ ht => ht) fun state => ?_
    · rw [jobs, begins]
      exact h.roster.begin_ next i (pass k)
    · obtain ⟨active, byHand, -⟩ := h.listening state
      exact ⟨active, byHand, open_⟩
  · refine h.of_loop ?_ (fun _ ht => ht) fun state => ?_
    · rw [jobs, queue]
      exact h.roster
    · rw [queue]
      exact h.listening state

end

/-! ### Steps -/

variable [ResourceKind S]

def write (c : Station S) (w : Write S) : Station S :=
  { c with store := (c.store.write w).store, loop := c.loop.hearOwn (c.store.write w).change }

def beginPass (c : Station S) (k : Key) : Worker S :=
  .working k (Pass.run c.loop.logic .inStore c.loop.settings.shortWait k)
    (c.now + c.loop.timing.wait c.now c.loop.settings.reconcileTimeout)

/-- The store and the pacer answer what concerns them; others say what they like. -/
inductive Answered (c : Station S) : (q : Request S) → q.Answer → Station S → Prop
  | get (key) : Answered c (.get key) (c.store.get key) c
  | update (o) : Answered c (.update o) (c.store.update o).answer (c.write (.update o))
  | updateStatus (o) :
    Answered c (.updateStatus o) (c.store.updateStatus o).answer (c.write (.updateStatus o))
  | clock (now) : Answered c .clock now c
  | organizations (r) : Answered c (.logic .organizations) r c
  | nextDelay (identity) :
    Answered c (.logic (.nextDelay identity)) (c.loop.pacer.nextDelay identity).1
      (c.paced (c.loop.pacer.nextDelay identity).2)
  | forget (identity) :
    Answered c (.logic (.forget identity)) () (c.paced (c.loop.pacer.forget identity))
  | sleep (d) : Answered c (.logic (.sleep d)) () c
  | entered (hook) : Answered c (.logic (.entered hook)) () c

inductive Step (c : Station S) : Deed S → Station S → Prop
  | client (w : Write S) : Step c (.client w) (c.write w)
  | elapse {now rank} (related concerned) (later : c.now ≤ now) (drawn : c.rank ≤ rank) :
    Step c .rest ⟨c.store, { c.loop with related, concerned }, now, rank⟩
  | concern (related concerned) (k : Key) :
    Step c (.added [k]) { c with loop := { c.loop with related, concerned }.enqueue k }
  | takeOwn (free : c.loop.arrived = []) : Step c .rest { c with loop := c.loop.takeOwn }
  | arrive {k ks} (next : c.loop.arrived = k :: ks) :
    Step c (.added [k]) { c with loop := c.loop.enqueueArrived }
  | launch (state : c.loop.state = .launching) :
    Step c (.added (c.store.list.map (·.key))) { c with loop := c.loop.launch (.ok c.store.list) }
  | halt : Step c .rest { c with loop := c.loop.halt }
  | fire {t} (armed : t ∈ c.loop.timers) (due : t.due ≤ c.now) :
    Step c (.fired t) { c with loop := c.loop.fire t }
  | look {i w r} (at_ : c.loop.workers[i]? = some w) (comes : Comes c.loop i w r) :
    Step c (r.1.deed S)
      { c with loop := { c.loop with lobby := r.2 }.looked i c.beginPass r.1 }
  /-- A pass that is suspended in a question may be given up there. -/
  | ask {i k q deadline r b w p} {next : Request.Answer q → Pass S Outcome}
    (at_ : c.loop.workers[i]? = some (.working k (.ask q next) deadline))
    (answered : Answered c q r b) (goesOn : p = next r ∨ p = Cluster.expired c.loop)
    (job : w.job? = some (k, p)) : Step c (.asked k q) (b.setWorker i w)
  | wake {i w w'} (at_ : c.loop.workers[i]? = some w) (same : w'.job? = w.job?) :
    Step c .rest (c.setWorker i w')
  | expire {i w k p deadline} (at_ : c.loop.workers[i]? = some w) (job : w.job? = some (k, p)) :
    Step c .rest (c.setWorker i (.working k (Cluster.expired c.loop) deadline))
  | finish {i k r deadline} (at_ : c.loop.workers[i]? = some (.working k (.done r) deadline)) :
    Step c (.ended k r)
      ⟨c.store, c.loop.finish i c.now c.rank k r, c.now, c.rank + 1⟩

/-- Steps that are allowed, one after the other, each with its time. -/
inductive Run (allowed : Station S → Deed S → Station S → Prop) (a : Station S) :
    List (Nat × Deed S) → Station S → Prop
  | here : Run allowed a [] a
  | step {tr b d c} (run : Run allowed a tr b) (step : Step b d c) (ok : allowed b d c) :
    Run allowed a (tr ++ [(b.now, d)]) c

variable {c c' : Station S} {d : Deed S}

theorem Tidy.write (h : c.Tidy) (w : Write S) : (c.write w).Tidy := by
  have keyed := (Store.turn_write h.keyed w).keyed h.keyed
  refine ⟨keyed, h.roster, h.drawn, h.distinct, fun state => ?_⟩
  obtain ⟨active, byHand, open_⟩ := h.listening state
  unfold Station.write Loop.hearOwn
  cases (c.store.write w).change with
  | none => exact ⟨active, byHand, open_⟩
  | some x =>
    exact ⟨(Feed.active_publish _ x).trans active, (Feed.byHand_publish _ x).trans byHand, open_⟩

theorem Tidy.answered (h : c.Tidy) {q : Request S} {r : q.Answer} (answered : Answered c q r c') :
    c'.Tidy ∧ c'.loop.jobs = c.loop.jobs := by
  cases answered with
  | update o => exact ⟨h.write (.update o), rfl⟩
  | updateStatus o => exact ⟨h.write (.updateStatus o), rfl⟩
  | nextDelay | forget => exact ⟨h.of_loop h.roster (fun _ ht => ht) h.listening, rfl⟩
  | get | clock | organizations | sleep | entered => exact ⟨h, rfl⟩

theorem Tidy.step (h : c.Tidy) (step : Step c d c') : c'.Tidy := by
  cases step with
  | client w => exact h.write w
  | elapse _ _ _ drawn =>
    exact ⟨h.keyed, h.roster, fun t ht => Nat.lt_of_lt_of_le (h.drawn t ht) drawn, h.distinct,
      h.listening⟩
  | concern related concerned k => exact h.enqueue k c.loop.arrived related concerned
  | takeOwn free => exact h.takeOwn free
  | @arrive k ks next =>
    rw [Loop.enqueueArrived_eq _ next]
    exact h.enqueue k ks c.loop.related c.loop.concerned
  | launch state => exact h.launch state c.store.list
  | halt => exact h.halt
  | fire => exact h.fire _
  | look at_ comes => exact h.look at_ comes fun _ => rfl
  | ask at_ answered _ job =>
    obtain ⟨tidy, jobs⟩ := h.answered answered
    refine tidy.setWorker ?_
    rw [job]
    exact tidy.roster.go_on (jobs ▸ Loop.getElem?_jobs at_) _
  | wake at_ same =>
    refine h.of_loop ?_ (fun _ ht => ht) h.listening
    rw [Loop.jobs_setWorker_same at_ same]
    exact h.roster
  | expire at_ job =>
    exact h.setWorker (h.roster.go_on ((Loop.getElem?_jobs at_).trans (congrArg some job)) _)
  | finish at_ => exact h.finish at_

theorem Step.later (step : Step c d c') : c.now ≤ c'.now := by
  cases step with
  | elapse _ _ later => exact later
  | ask _ answered => cases answered <;> exact Nat.le_refl _
  | client | concern | takeOwn | arrive | launch | halt | fire | look | wake | expire | finish =>
    exact Nat.le_refl _

theorem Step.pacer (step : Step c d c') :
    c'.loop.settings = c.loop.settings ∧ c'.loop.timing = c.loop.timing ∧
      c'.loop.logic = c.loop.logic ∧ (c'.loop.pacer = c.loop.pacer ∨
        (∃ i, c'.loop.pacer = (c.loop.pacer.nextDelay i).2) ∨
        ∃ k i, d = .asked k (.logic (.forget i)) ∧ c'.loop.pacer = c.loop.pacer.forget i) := by
  cases step with
  | client | elapse | concern | fire | wake | expire | finish => exact ⟨rfl, rfl, rfl, .inl rfl⟩
  | takeOwn free =>
    rw [Loop.takeOwn_eq _ free]
    exact ⟨rfl, rfl, rfl, .inl rfl⟩
  | arrive next =>
    rw [Loop.enqueueArrived_eq _ next]
    exact ⟨rfl, rfl, rfl, .inl rfl⟩
  | launch =>
    rw [Loop.launch_eq]
    exact ⟨rfl, rfl, rfl, .inl rfl⟩
  | halt =>
    unfold Loop.halt
    split <;> exact ⟨rfl, rfl, rfl, .inl rfl⟩
  | look =>
    rw [looked_eq]
    exact ⟨rfl, rfl, rfl, .inl rfl⟩
  | ask _ answered =>
    cases answered with
    | nextDelay i => exact ⟨rfl, rfl, rfl, .inr (.inl ⟨i, rfl⟩)⟩
    | forget i => exact ⟨rfl, rfl, rfl, .inr (.inr ⟨_, i, rfl, rfl⟩)⟩
    | get | update | updateStatus | clock | organizations | sleep | entered =>
      exact ⟨rfl, rfl, rfl, .inl rfl⟩

/-- What holds of a pass when it begins, whatever it is told, and of one that is given up, holds of
every pass. -/
theorem Step.passes {P : Key → Pass S Outcome → Prop} (step : Step c d c')
    (begins : ∀ k, d = .began k →
      P k (Pass.run c.loop.logic .inStore c.loop.settings.shortWait k))
    (asks : ∀ k (q : Request S) next r b, P k (.ask q next) → Answered c q r b → P k (next r))
    (expires : ∀ k, P k (Cluster.expired c.loop))
    (h : ∀ (i : Nat) k p, c.loop.jobs[i]? = some (some (k, p)) → P k p) :
    ∀ (i : Nat) k p, c'.loop.jobs[i]? = some (some (k, p)) → P k p := by
  -- one worker goes on with another pass, or with none
  have set {jobs : List (Option (Key × Pass S Outcome))} {i : Nat}
      {job : Option (Key × Pass S Outcome)} (same : jobs = c.loop.jobs.set i job)
      (new : ∀ k p, job = some (k, p) → P k p) :
      ∀ (j : Nat) k p, jobs[j]? = some (some (k, p)) → P k p := by
    intro j k p at_
    rw [same] at at_
    rcases Roster.of_set at_ with ⟨-, he⟩ | ⟨-, at_⟩
    · exact new k p he
    · exact h j k p at_
  cases step with
  | client | elapse | concern | fire => exact h
  | takeOwn free =>
    rw [Loop.takeOwn_eq _ free]
    exact h
  | arrive next =>
    rw [Loop.enqueueArrived_eq _ next]
    exact h
  | launch =>
    rw [Loop.launch_eq]
    intro i k p at_
    rw [Loop.jobs, List.map_replicate, List.getElem?_replicate] at at_
    split at at_ <;> cases at_
  | halt =>
    unfold Loop.halt
    split <;> exact h
  | look at_ comes =>
    have jobs := comes.jobs at_ c.beginPass
    rcases jobs with ⟨l, began, -, jobs⟩ | ⟨-, -, jobs⟩
    · refine set jobs fun k p hk => ?_
      cases hk
      exact begins _ (by rw [began]; rfl)
    · dsimp only
      rw [jobs]
      exact h
  | @ask i k q _ r b w p next at_ answered goesOn job =>
    have had := Loop.getElem?_jobs at_
    have jobs : (b.setWorker i w).loop.jobs = c.loop.jobs.set i w.job? := by
      rw [setWorker, Loop.jobs_setWorker]
      cases answered <;> rfl
    refine set jobs fun l p' hk => ?_
    cases job.symm.trans hk
    rcases goesOn with rfl | rfl
    · exact asks k q next r b (h i k _ had) answered
    · exact expires k
  | wake at_ same =>
    dsimp only [setWorker]
    rw [Loop.jobs_setWorker_same at_ same]
    exact h
  | expire =>
    refine set (Loop.jobs_setWorker _ _ _) fun k p hk => ?_
    cases hk
    exact expires _
  | finish =>
    refine set (Loop.jobs_finish _ _ _ _ _ _) fun k p hk => ?_
    cases hk

/-! ### Runs -/

variable {allowed : Station S → Deed S → Station S → Prop} {tr : List (Nat × Deed S)}

theorem Run.tidy (run : Run allowed c tr c') (h : c.Tidy) : c'.Tidy := by
  induction run with
  | here => exact h
  | step _ step _ ih => exact ih.step step

theorem Run.later (run : Run allowed c tr c') : c.now ≤ c'.now ∧ ∀ x ∈ tr, c.now ≤ x.1 := by
  induction run with
  | here => exact ⟨Nat.le_refl _, List.forall_mem_nil _⟩
  | step run step _ ih =>
    refine ⟨Nat.le_trans ih.1 step.later, List.forall_mem_append.2 ⟨ih.2, ?_⟩⟩
    rintro x hx
    cases List.mem_singleton.1 hx
    exact ih.1

theorem Run.settings (run : Run allowed c tr c') :
    c'.loop.settings = c.loop.settings ∧ c'.loop.timing = c.loop.timing := by
  induction run with
  | here => exact ⟨rfl, rfl⟩
  | step _ step _ ih => exact ⟨step.pacer.1.trans ih.1, step.pacer.2.1.trans ih.2⟩

theorem Run.nil (run : Run allowed c [] c') : c' = c := by
  generalize empty : ([] : List (Nat × Deed S)) = tr at run
  cases run with
  | here => rfl
  | step => simp at empty

theorem Run.one {x : Nat × Deed S} (run : Run allowed c [x] c') :
    x.1 = c.now ∧ Step c x.2 c' := by
  generalize one : [x] = tr at run
  cases run with
  | here => cases one
  | @step tr b d _ run step _ =>
    have one : [] ++ [x] = tr ++ [(b.now, d)] := one
    obtain ⟨rfl, he⟩ := List.append_inj' one rfl
    cases he
    cases run.nil
    exact ⟨rfl, step⟩

theorem Run.trans {A B : List (Nat × Deed S)} {b : Station S} (run : Run allowed c A b)
    (run' : Run allowed b B c') : Run allowed c (A ++ B) c' := by
  induction run' with
  | here => rwa [List.append_nil]
  | step _ step ok ih =>
    rw [← List.append_assoc]
    exact .step ih step ok

theorem Run.split {A B : List (Nat × Deed S)} (run : Run allowed c (A ++ B) c') :
    ∃ b, Run allowed c A b ∧ Run allowed b B c' := by
  generalize whole : A ++ B = tr at run
  induction run generalizing B with
  | here =>
    obtain ⟨rfl, rfl⟩ := List.append_eq_nil_iff.1 whole
    exact ⟨c, .here, .here⟩
  | @step tr b d c' run step ok ih =>
    rcases B.eq_nil_or_concat with rfl | ⟨B, y, rfl⟩
    · rw [List.append_nil] at whole
      exact ⟨c', whole ▸ .step run step ok, .here⟩
    · rw [List.concat_eq_append, ← List.append_assoc] at whole
      obtain ⟨before, last⟩ := List.append_inj' whole rfl
      obtain ⟨b', first, rest⟩ := ih before
      cases last
      rw [List.concat_eq_append]
      exact ⟨b', first, rest.step step ok⟩

end Station
end Tenancy
