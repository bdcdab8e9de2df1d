import Tenancy.Proofs.Control.Station

/-! How often a key will come to a worker. A key that comes back after each pass is carried along by
a chain: a timer, then a place in the queue, then a pass, then a timer again. Every time the key is
queued for the first time one chain is started at most, and nothing else starts any. -/

namespace Tenancy

theorem toNat_contains_le {s t : Std.ExtTreeSet Key} {k : Key} {b : Bool}
    (h : k ∈ s → k ∈ t ∨ b = true) : (s.contains k).toNat ≤ (t.contains k).toNat + b.toNat := by
  rw [Std.ExtTreeSet.mem_iff_contains, Std.ExtTreeSet.mem_iff_contains] at h
  revert h
  cases s.contains k <;> cases t.contains k <;> cases b <;> decide

theorem toNat_erase_le {s t : Std.ExtTreeSet Key} {k l : Key} (h : ∀ x, x ∈ s → x ∈ t ∧ x ≠ l)
    (was : l ∈ t) : (s.contains k).toNat + (decide (l = k)).toNat ≤ (t.contains k).toNat := by
  by_cases hl : l = k
  · subst hl
    have gone : s.contains l = false := by
      rw [← Bool.not_eq_true, ← Std.ExtTreeSet.mem_iff_contains]
      exact fun hs => (h l hs).2 rfl
    rw [gone, Std.ExtTreeSet.mem_iff_contains.1 was, decide_eq_true rfl]
    exact Nat.le_refl _
  · rw [decide_eq_false hl]
    have fewer : (s.contains k).toNat ≤ (t.contains k).toNat + false.toNat :=
      toNat_contains_le fun hs => .inl (h k hs).1
    exact fewer

theorem countP_one {α : Type} (p : α → Bool) (x : α) : [x].countP p = (p x).toNat := by
  rw [List.countP_singleton]
  cases p x <;> rfl

namespace WorkQueue

variable {k : Key}

theorem dirty_add_le (q : WorkQueue) (x : Key) : ((q.add x).1.dirty.contains k).toNat ≤
    (q.dirty.contains k).toNat + (decide (x = k)).toNat := by
  refine toNat_contains_le fun h => ?_
  rcases mem_dirty_add.1 h with dirty | ⟨-, rfl⟩
  · exact .inl dirty
  · exact .inr (decide_eq_true rfl)

theorem dirty_addAll_le (q : WorkQueue) (ks : List Key) :
    ((q.addAll ks).dirty.contains k).toNat ≤ (q.dirty.contains k).toNat + ks.count k := by
  induction ks generalizing q with
  | nil => exact Nat.le_refl _
  | cons x xs ih =>
    have first := q.dirty_add_le (k := k) x
    have rest : ((q.addAll (x :: xs)).dirty.contains k).toNat ≤
        ((q.add x).1.dirty.contains k).toNat + xs.count k := ih (q.add x).1
    have count : (x :: xs).count k = xs.count k + (decide (x = k)).toNat := by
      rw [List.count_cons, beq_eq_decide]
      cases decide (x = k) <;> rfl
    omega

end WorkQueue

namespace Deed

variable {S : Type}

def adds (k : Key) : Deed S → Nat
  | added ks => ks.count k
  | _ => 0

def begins (k : Key) : Deed S → Bool
  | began l => l = k
  | _ => false

theorem eq_of_begins {k : Key} {d : Deed S} (h : d.begins k = true) : d = .began k := by
  cases d with
  | began => rw [of_decide_eq_true h]
  | rest | client | added | fired | asked | ended => cases h

def ends (k : Key) : Deed S → Bool
  | ended l _ => l = k
  | _ => false

def fires (k : Key) : Deed S → Bool
  | fired t => t.key = k
  | _ => false

/-- A pass over the key ends and leaves a timer that is due at a time of the given sort. -/
def leaves (k : Key) (sort : Nat → Bool) (timing : Timing) (now : Nat) (backoff : Span) :
    Deed S → Bool
  | ended l r => l = k && (r.wait? backoff).any fun d => sort (now + timing.wait now d)
  | _ => false

end Deed

namespace Station

variable {S : Type} {c c' : Station S} {k : Key} {d : Deed S} {sort : Nat → Bool}

inductive Traffic (c : Station S) : Deed S → List Timer → WorkQueue → Prop
  | client (w) : Traffic c (.client w) c.loop.timers c.loop.lobby.queue
  | asked (k q) : Traffic c (.asked k q) c.loop.timers c.loop.lobby.queue
  | still : Traffic c .rest c.loop.timers c.loop.lobby.queue
  | shut : Traffic c .rest c.loop.timers c.loop.lobby.queue.shutDown
  | added (ks) : Traffic c (.added ks) c.loop.timers (c.loop.lobby.queue.addAll ks)
  | fired {t} (armed : t ∈ c.loop.timers) (due : t.due ≤ c.now) :
    Traffic c (.fired t) (c.loop.timers.filter (·.rank != t.rank)) (c.loop.lobby.queue.add t.key).1
  | began {k queue} (next : c.loop.lobby.queue.pop = (.key k, queue)) :
    Traffic c (.began k) c.loop.timers queue
  | ended {i : Nat} {k r} (at_ : c.loop.jobs[i]? = some (some (k, .done r))) :
    Traffic c (.ended k r)
      (c.loop.timers ++ ((r.wait? c.loop.settings.errorBackoff).map fun w =>
        ⟨c.now + c.loop.timing.wait c.now w, c.rank, k⟩).toList)
      (c.loop.lobby.queue.done k).1

def pending (c : Station S) (k : Key) (sort : Nat → Bool) : Nat :=
  c.loop.timers.countP fun t => t.key = k && sort t.due

def dirty (c : Station S) (k : Key) : Nat := (c.loop.lobby.queue.dirty.contains k).toNat

def held (c : Station S) (k : Key) : Nat := (c.loop.lobby.queue.processing.contains k).toNat

/-- How often a key will come to a worker, by timers of the given sort and by the queue. -/
def waiting (c : Station S) (k : Key) (sort : Nat → Bool) : Nat := c.pending k sort + c.dirty k

/-- The chains of a key: its timers, its place in the queue, and the pass over it. -/
def chains (c : Station S) (k : Key) : Nat :=
  c.pending k (fun _ => true) + c.dirty k + c.held k

theorem countP_fire {ts : List Timer} {t : Timer} (armed : t ∈ ts) (p : Timer → Bool) :
    (ts.filter (·.rank != t.rank)).countP p + (p t).toNat ≤ ts.countP p := by
  rw [List.countP_eq_countP_filter_add ts p (·.rank != t.rank)]
  refine Nat.add_le_add_left ?_ _
  cases counted : p t with
  | false => exact Nat.zero_le _
  | true =>
    refine List.countP_pos_iff.2 ⟨t, List.mem_filter.2 ⟨armed, ?_⟩, counted⟩
    simp

section

variable {timers : List Timer} {queue : WorkQueue}

theorem Traffic.idle (traffic : Traffic c (.began k) timers queue) (tidy : c.Tidy) :
    ∀ (i : Nat) p, c.loop.jobs[i]? ≠ some (some (k, p)) := by
  cases traffic with
  | began next => exact tidy.roster.idle_of_pop next

theorem Traffic.outcome {r : Outcome} (traffic : Traffic c (.ended k r) timers queue) :
    ∃ i : Nat, c.loop.jobs[i]? = some (some (k, .done r)) := by
  cases traffic with
  | ended at_ => exact ⟨_, at_⟩

theorem Traffic.pending (traffic : Traffic c d timers queue)
    (ripe : ∀ n, n ≤ c.now → sort n = true) :
    timers.countP (fun t => t.key = k && sort t.due) + (d.fires k).toNat ≤ c.pending k sort +
      (d.leaves k sort c.loop.timing c.now c.loop.settings.errorBackoff).toNat := by
  cases traffic with
  | client | asked | still | shut | added | began => exact Nat.le_refl (c.pending k sort)
  | @fired t armed due =>
    have fired := countP_fire armed fun t => t.key = k && sort t.due
    rw [ripe t.due due, Bool.and_true] at fired
    exact fired
  | @ended i l r =>
    refine Nat.le_of_eq ?_
    rw [List.countP_append]
    dsimp only [Deed.leaves]
    cases r.wait? c.loop.settings.errorBackoff with
    | none =>
      rw [Option.any_none, Bool.and_false]
      rfl
    | some w =>
      rw [Option.map_some, Option.toList_some, countP_one]
      rfl

theorem Traffic.dirty (traffic : Traffic c d timers queue) (tidy : c.Tidy) :
    (queue.dirty.contains k).toNat + (d.begins k).toNat ≤
      c.dirty k + d.adds k + (d.fires k).toNat := by
  cases traffic with
  | client | asked | still => exact Nat.le_refl (c.dirty k)
  | shut => exact Nat.zero_le (c.dirty k)
  | added ks => exact c.loop.lobby.queue.dirty_addAll_le ks
  | @fired t => exact c.loop.lobby.queue.dirty_add_le t.key
  | @began l queue next =>
    obtain ⟨-, -, queued, dirty, -⟩ := WorkQueue.pop_key next
    -- the key was dirty, and is not any more
    have was := tidy.roster.queue.dirty_of_queued l (by simp [queued])
    exact toNat_erase_le (fun x => (dirty x).1) was
  | @ended i l r =>
    rw [WorkQueue.dirty_done]
    exact Nat.le_refl (c.dirty k)

theorem Traffic.held (traffic : Traffic c d timers queue) (tidy : c.Tidy) :
    (queue.processing.contains k).toNat + (d.ends k).toNat ≤ c.held k + (d.begins k).toNat := by
  cases traffic with
  | client | asked | still | shut => exact Nat.le_refl (c.held k)
  | added ks =>
    rw [WorkQueue.processing_addAll]
    exact Nat.le_refl (c.held k)
  | @fired t =>
    rw [WorkQueue.processing_add]
    exact Nat.le_refl (c.held k)
  | @began l queue next =>
    obtain ⟨-, -, -, -, processing⟩ := WorkQueue.pop_key next
    exact toNat_contains_le fun hk => ((processing k).1 hk).imp_right fun he => by
      rw [he]
      exact decide_eq_true rfl
  | @ended i l r at_ =>
    have was := tidy.roster.held i l _ at_
    exact toNat_erase_le (fun x => WorkQueue.mem_processing_done.1) was

end

variable [ResourceKind S] {allowed : Station S → Deed S → Station S → Prop}

theorem Step.traffic (step : Step c d c') : Traffic c d c'.loop.timers c'.loop.lobby.queue := by
  cases step with
  | client w => exact .client w
  | elapse | wake | expire => exact .still
  | concern related concerned k =>
    dsimp only [Loop.enqueue]
    rw [Lobby.queue_add]
    exact .added [k]
  | takeOwn free =>
    rw [Loop.takeOwn_eq _ free]
    exact .still
  | @arrive k ks next =>
    rw [Loop.enqueueArrived_eq _ next]
    dsimp only [Loop.enqueue]
    rw [Lobby.queue_add]
    exact .added [k]
  | launch =>
    rw [Loop.launch_eq]
    dsimp only
    rw [Loop.queue_enqueueAll]
    exact .added _
  | halt =>
    unfold Loop.halt
    split
    · exact .shut
    · exact .still
    · exact .still
  | @fire t armed due =>
    dsimp only
    rw [Loop.queue_fire]
    exact .fired armed due
  | @look _ _ r at_ comes =>
    have jobs := comes.jobs at_ c.beginPass
    rw [looked_eq]
    dsimp only
    rcases jobs with ⟨l, began, next, -⟩ | ⟨rest, queue, -⟩
    · rw [began]
      exact .began next
    · rw [rest, queue]
      exact .still
  | ask _ answered => cases answered <;> exact .asked _ _
  | @finish i l r deadline at_ =>
    dsimp only
    rw [Loop.queue_finish, Loop.timers_finish]
    exact .ended (Loop.getElem?_jobs at_)

theorem Step.waiting (tidy : c.Tidy) (step : Step c d c')
    (ripe : ∀ n, n ≤ c.now → sort n = true) :
    c'.waiting k sort + (d.begins k).toNat ≤ c.waiting k sort + d.adds k +
      (d.leaves k sort c.loop.timing c.now c.loop.settings.errorBackoff).toNat := by
  have pending : c'.pending k sort + (d.fires k).toNat ≤ c.pending k sort +
      (d.leaves k sort c.loop.timing c.now c.loop.settings.errorBackoff).toNat :=
    step.traffic.pending ripe
  have dirty : c'.dirty k + (d.begins k).toNat ≤
      c.dirty k + d.adds k + (d.fires k).toNat := step.traffic.dirty tidy
  unfold Station.waiting
  omega

theorem Step.waiting_of_begins (tidy : c.Tidy) (step : Step c d c') (begins : d.begins k = true)
    (ripe : ∀ n, n ≤ c.now → sort n = true) : c'.waiting k sort + 1 ≤ c.waiting k sort := by
  have counted := step.waiting (k := k) tidy ripe
  obtain rfl := Deed.eq_of_begins begins
  rw [begins] at counted
  exact counted

omit [ResourceKind S] in
theorem leaves_le_ends (d : Deed S) (k : Key) (sort : Nat → Bool) (timing : Timing) (now : Nat)
    (backoff : Span) : (d.leaves k sort timing now backoff).toNat ≤ (d.ends k).toNat := by
  cases d with
  | ended l r =>
    unfold Deed.leaves Deed.ends
    dsimp only
    cases decide (l = k)
    · exact Nat.le_refl _
    · exact Bool.toNat_le _
  | rest | client | added | fired | began | asked => exact Nat.le_refl _

/-- Nothing but an addition starts a chain. -/
theorem Step.chains (tidy : c.Tidy) (step : Step c d c') :
    c'.chains k ≤ c.chains k + d.adds k := by
  have waiting := step.waiting (k := k) tidy fun _ _ => rfl
  have held : c'.held k + (d.ends k).toNat ≤ c.held k + (d.begins k).toNat :=
    step.traffic.held tidy
  have left := leaves_le_ends d k (fun _ => true) c.loop.timing c.now c.loop.settings.errorBackoff
  unfold Station.chains
  unfold Station.waiting at waiting
  omega

def additions (k : Key) : List (Nat × Deed S) → Nat
  | [] => 0
  | x :: tr => x.2.adds k + additions k tr

omit [ResourceKind S] in
theorem additions_append (k : Key) (A B : List (Nat × Deed S)) :
    additions k (A ++ B) = additions k A + additions k B := by
  induction A with
  | nil => exact (Nat.zero_add _).symm
  | cons x A ih =>
    simp only [List.cons_append, additions, ih]
    omega

omit [ResourceKind S] in
theorem additions_eq_zero {tr : List (Nat × Deed S)} (quiet : ∀ x ∈ tr, x.2.adds k = 0) :
    additions k tr = 0 := by
  induction tr with
  | nil => rfl
  | cons x tr ih =>
    obtain ⟨first, rest⟩ := List.forall_mem_cons.1 quiet
    rw [additions, first, ih rest]

theorem Run.chains {tr : List (Nat × Deed S)} (tidy : c.Tidy) (run : Run allowed c tr c') :
    c'.chains k ≤ c.chains k + additions k tr := by
  induction run with
  | here => exact Nat.le_refl _
  | @step tr b d c' run step _ ih =>
    have last := step.chains (k := k) (run.tidy tidy)
    have one : additions k [(b.now, d)] = d.adds k := rfl
    rw [additions_append, one]
    omega

omit [ResourceKind S] in
theorem waiting_le_chains (c : Station S) (k : Key) (sort : Nat → Bool) :
    c.waiting k sort ≤ c.chains k := by
  have pending : c.pending k sort ≤ c.pending k fun _ => true := by
    refine List.countP_mono_left fun t _ counted => ?_
    rw [Bool.and_true]
    exact (Bool.and_eq_true_iff.1 counted).1
  unfold waiting chains
  omega

theorem Run.waiting {tr : List (Nat × Deed S)} (tidy : c.Tidy) (run : Run allowed c tr c')
    (ripe : ∀ n, n ≤ c'.now → sort n = true) (quiet : ∀ x ∈ tr, x.2.adds k = 0)
    (left : ∀ x ∈ tr,
      x.2.leaves k sort c.loop.timing x.1 c.loop.settings.errorBackoff = false) :
    c'.waiting k sort + tr.countP (·.2.begins k) ≤ c.waiting k sort := by
  induction run with
  | here => exact Nat.le_refl _
  | @step tr b d c' run step _ ih =>
    obtain ⟨quiet, added⟩ := List.forall_mem_append.1 quiet
    obtain ⟨left, leaves⟩ := List.forall_mem_append.1 left
    have ripe' (n : Nat) (hn : n ≤ b.now) : sort n = true := ripe n (Nat.le_trans hn step.later)
    have before := ih ripe' quiet left
    have last := step.waiting (k := k) (run.tidy tidy) ripe'
    have added : d.adds k = 0 := added _ (List.mem_singleton_self _)
    have leaves : d.leaves k sort c.loop.timing b.now c.loop.settings.errorBackoff = false :=
      leaves _ (List.mem_singleton_self _)
    rw [run.settings.1, run.settings.2, added, leaves] at last
    rw [List.countP_append, countP_one]
    simp only [Bool.toNat_false] at last ⊢
    omega

end Station
end Tenancy
