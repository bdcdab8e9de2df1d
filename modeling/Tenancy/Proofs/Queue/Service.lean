import Tenancy.Proofs.Queue.Consistent

/-! Work queues in service. Producers add keys, workers take them and release what they took, and at
some time the queue may be shut down. Main statement: whatever the order of the calls, no key is in
two hands, keys leave in the order in which they came, every addition is answered by a later pop,
and every pop answers an addition. -/

namespace Tenancy.WorkQueue

inductive Event where
  | added (k : Key) (joined : Bool)
  | popped (worker : Nat) (r : Popped)
  | released (worker : Nat) (k : Key) (joined : Bool)
  | closed
deriving DecidableEq

namespace Event

def entered? : Event → Option Key
  | added k true | released _ k true => some k
  | _ => none

def left? : Event → Option Key
  | popped _ (.key k) => some k
  | _ => none

@[simp] theorem entered?_added (k : Key) (j : Bool) :
    (added k j).entered? = if j then some k else none := by
  cases j <;> rfl

@[simp] theorem entered?_released (w : Nat) (k : Key) (j : Bool) :
    (released w k j).entered? = if j then some k else none := by
  cases j <;> rfl

@[simp] theorem entered?_popped (w : Nat) (r : Popped) : (popped w r).entered? = none := rfl

@[simp] theorem left?_added (k : Key) (j : Bool) : (added k j).left? = none := rfl

@[simp] theorem left?_released (w : Nat) (k : Key) (j : Bool) : (released w k j).left? = none := rfl

theorem left?_popped_key (w : Nat) (k : Key) : (popped w (.key k)).left? = some k := rfl

theorem left?_popped {w : Nat} {r : Popped} (h : ∀ k, r ≠ .key k) : (popped w r).left? = none := by
  cases r with
  | key k => exact absurd rfl (h k)
  | closed | nothing => rfl

def Idle (e : Event) : Prop := e.entered? = none ∧ ∀ w r, e = popped w r → r = .closed

/-- There was an addition of the key, and the key was not handed out since. -/
def Owed (k : Key) (es : List Event) : Prop :=
  ∃ before j after, es = before ++ added k j :: after ∧ ∀ w, popped w (.key k) ∉ after

theorem split_last {es before after : List Event} {d e : Event}
    (h : es ++ [e] = before ++ d :: after) :
    (es = before ∧ e = d ∧ after = []) ∨
      ∃ rest, after = rest ++ [e] ∧ es = before ++ d :: rest := by
  rcases List.eq_nil_or_concat after with rfl | ⟨rest, x, rfl⟩
  · obtain ⟨hes, he⟩ := List.append_inj' h rfl
    exact .inl ⟨hes, List.singleton_inj.1 he, rfl⟩
  · rw [List.concat_eq_append, ← List.cons_append, ← List.append_assoc] at h
    obtain ⟨hes, he⟩ := List.append_inj' h rfl
    exact .inr ⟨rest, by rw [List.concat_eq_append, he], hes⟩

theorem owed_append {k : Key} {es : List Event} {e : Event} (h : ∀ w, e ≠ popped w (.key k)) :
    Owed k (es ++ [e]) ↔ Owed k es ∨ ∃ j, e = added k j := by
  constructor
  · rintro ⟨before, j, after, he, hp⟩
    rcases split_last he with ⟨-, hj, -⟩ | ⟨rest, rfl, hes⟩
    · exact .inr ⟨j, hj⟩
    · exact .inl ⟨before, j, rest, hes, fun w hw => hp w (List.mem_append_left _ hw)⟩
  · rintro (⟨before, j, after, rfl, hp⟩ | ⟨j, rfl⟩)
    · refine ⟨before, j, after ++ [e], by simp, fun w hw => ?_⟩
      rcases List.mem_append.1 hw with hw | hw
      · exact hp w hw
      · exact h w (List.mem_singleton.1 hw).symm
    · exact ⟨es, j, [], rfl, fun w => List.not_mem_nil⟩

theorem not_owed_of_popped {k : Key} {es : List Event} {w : Nat} :
    ¬Owed k (es ++ [popped w (.key k)]) := by
  rintro ⟨before, j, after, he, hp⟩
  rcases split_last he with ⟨-, hj, -⟩ | ⟨rest, rfl, -⟩
  · cases hj
  · exact hp w (by simp)

end Event

def Popped.taken (w : Nat) : Popped → List (Nat × Key)
  | .key k => [(w, k)]
  | _ => []

/-- The calls up to now, the queue, and what each worker has taken and not released. A worker
releases only what it holds. -/
inductive Run : List Event → WorkQueue → List (Nat × Key) → Prop
  | start : Run [] .empty []
  | add {es q held} (k : Key) (h : Run es q held) :
    Run (es ++ [.added k (q.add k).2]) (q.add k).1 held
  | pop {es q held} (w : Nat) (h : Run es q held) :
    Run (es ++ [.popped w q.pop.1]) q.pop.2 (q.pop.1.taken w ++ held)
  | done {es q held} {w : Nat} {k : Key} (h : Run es q held) (hk : (w, k) ∈ held) :
    Run (es ++ [.released w k (q.done k).2]) (q.done k).1 (held.erase (w, k))
  | shutDown {es q held} (h : Run es q held) : Run (es ++ [.closed]) q.shutDown held

namespace Run

variable {es : List Event} {q : WorkQueue} {held : List (Nat × Key)}

/-! ### Who holds what -/

structure Holders (q : WorkQueue) (held : List (Nat × Key)) : Prop where
  nodup : (held.map Prod.snd).Nodup
  mem_processing : ∀ k, k ∈ q.processing ↔ ∃ w, (w, k) ∈ held

theorem Holders.erase {w : Nat} {k : Key} (h : Holders q held) (hk : (w, k) ∈ held) :
    Holders (q.done k).1 (held.erase (w, k)) := by
  have nodup : held.Nodup := List.Nodup.of_map _ h.nodup
  have unique (v : Nat) (hv : (v, k) ∈ held) : v = w :=
    congrArg Prod.fst (List.inj_on_of_nodup_map h.nodup hv hk rfl)
  constructor
  · exact h.nodup.sublist (List.erase_sublist.map _)
  · intro x
    rw [mem_processing_done, h.mem_processing]
    constructor
    · rintro ⟨⟨v, hv⟩, hne⟩
      exact ⟨v, (List.mem_erase_of_ne (by simp [hne])).2 hv⟩
    · rintro ⟨v, hv⟩
      rw [nodup.mem_erase_iff] at hv
      refine ⟨⟨v, hv.2⟩, ?_⟩
      rintro rfl
      exact hv.1 (by rw [unique v hv.2])

theorem consistent_and_holders (h : Run es q held) : q.Consistent ∧ Holders q held := by
  induction h with
  | start => exact ⟨.empty, List.nodup_nil, fun k => by simp [empty]⟩
  | add k _ ih =>
    refine ⟨ih.1.add k, ih.2.nodup, fun x => ?_⟩
    rw [processing_add, ih.2.mem_processing]
  | @pop _ q held w _ ih =>
    refine ⟨ih.1.pop, ?_⟩
    rcases hp : q.pop with ⟨r, q'⟩
    cases r with
    | key k =>
      obtain ⟨-, -, hq, -, hw⟩ := pop_key hp
      -- what has waited in the queue is held by nobody
      have idle : k ∉ q.processing := ih.1.idle_of_queued k (by simp [hq])
      constructor
      · refine List.nodup_cons.2 ⟨fun hk => ?_, ih.2.nodup⟩
        obtain ⟨⟨v, _⟩, hv, rfl⟩ := List.mem_map.1 hk
        exact idle ((ih.2.mem_processing _).2 ⟨v, hv⟩)
      · intro x
        rw [hw, ih.2.mem_processing]
        simp [Popped.taken, exists_or, or_comm]
    | closed | nothing => exact eq_of_pop hp (by simp) ▸ ih.2
  | @done _ _ _ w k _ hk ih =>
    exact ⟨ih.1.done ((ih.2.mem_processing k).2 ⟨w, hk⟩), ih.2.erase hk⟩
  | shutDown _ ih => exact ⟨.shutDown _, ih.2.nodup, ih.2.mem_processing⟩

/-! ### Open and closed -/

theorem closed_iff (h : Run es q held) : q.closed = true ↔ .closed ∈ es := by
  induction h with
  | start => simp [empty]
  | add k _ ih => simp [closed_add, ih]
  | @pop _ q _ w _ ih =>
    rw [List.mem_append, ← ih]
    rcases hp : q.pop with ⟨r, q'⟩
    cases r with
    | key k =>
      obtain ⟨ho, ho', -⟩ := pop_key hp
      simp [ho, ho']
    | closed | nothing => simp [eq_of_pop hp (by simp)]
  | done _ _ ih => simp [closed_done, ih]
  | shutDown => simp [WorkQueue.shutDown]

theorem open_of_not_mem (h : Run es q held) (ho : .closed ∉ es) : q.closed = false := by
  rw [← Bool.not_eq_true, h.closed_iff]
  exact ho

theorem idle_after_closed (h : Run es q held) :
    es.Pairwise fun d e => d = .closed → e.Idle := by
  have last {es : List Event} {e : Event} (ih : es.Pairwise fun d e => d = .closed → e.Idle)
      (he : .closed ∈ es → e.Idle) : (es ++ [e]).Pairwise fun d e => d = .closed → e.Idle := by
    refine List.pairwise_append.2 ⟨ih, List.pairwise_singleton _ _, fun d hd e' he' hc => ?_⟩
    rw [List.mem_singleton.1 he']
    exact he (hc ▸ hd)
  induction h with
  | start => exact List.Pairwise.nil
  | @add _ q _ k h ih =>
    refine last ih fun hc => ?_
    have hj : ¬(q.add k).2 = true := not_add_joins (h.closed_iff.2 hc)
    exact ⟨by rw [Event.entered?_added, if_neg hj], fun w r he => by cases he⟩
  | pop w h ih =>
    refine last ih fun hc => ⟨rfl, fun v r he => ?_⟩
    rw [pop_of_closed (h.closed_iff.2 hc)] at he
    cases he
    rfl
  | @done _ q _ w k h _ ih =>
    refine last ih fun hc => ?_
    have hj : ¬(q.done k).2 = true := not_done_joins (h.closed_iff.2 hc)
    exact ⟨by rw [Event.entered?_released, if_neg hj], fun v r he => by cases he⟩
  | shutDown _ ih => exact last ih fun _ => ⟨rfl, fun w r he => by cases he⟩

/-! ### The order of the keys -/

theorem entered_eq (h : Run es q held) (ho : .closed ∉ es) :
    es.filterMap Event.entered? = es.filterMap Event.left? ++ q.queue := by
  induction h with
  | start => rfl
  | add k _ ih =>
    rw [List.mem_append, not_or] at ho
    rw [List.filterMap_append, List.filterMap_append, ih ho.1, queue_add]
    split <;> simp_all
  | @pop _ q _ w h ih =>
    rw [List.mem_append, not_or] at ho
    rw [List.filterMap_append, List.filterMap_append, ih ho.1]
    rcases hp : q.pop with ⟨r, q'⟩
    cases r with
    | key k =>
      obtain ⟨-, -, hq, -⟩ := pop_key hp
      simp [Event.left?_popped_key, hq]
    | closed | nothing =>
      rw [eq_of_pop hp (by simp)]
      simp [Event.left?_popped]
  | done _ _ ih =>
    rw [List.mem_append, not_or] at ho
    rw [List.filterMap_append, List.filterMap_append, ih ho.1, queue_done]
    split <;> simp_all
  | shutDown => simp at ho

theorem left_prefix (h : Run es q held) :
    es.filterMap Event.left? <+: es.filterMap Event.entered? := by
  have grow {es : List Event} {e : Event}
      (ih : es.filterMap Event.left? <+: es.filterMap Event.entered?) (he : e.left? = none) :
      (es ++ [e]).filterMap Event.left? <+: (es ++ [e]).filterMap Event.entered? := by
    rw [List.filterMap_append, List.filterMap_append]
    simpa [he] using ih.trans (List.prefix_append _ _)
  induction h with
  | start => exact List.prefix_rfl
  | add k _ ih => exact grow ih rfl
  | @pop es q _ w h ih =>
    -- a shut-down drops what waits, so that the two lists grow together only before it
    by_cases ho : Event.closed ∈ es ++ [.popped w q.pop.1]
    · rw [List.mem_append] at ho
      refine grow ih ?_
      rw [pop_of_closed (h.closed_iff.2 (ho.resolve_right (by simp)))]
      rfl
    · rw [(h.pop w).entered_eq ho]
      exact List.prefix_append _ _
  | done _ _ ih => exact grow ih rfl
  | shutDown _ ih => exact grow ih rfl

/-! ### Additions and pops -/

theorem mem_dirty_iff (h : Run es q held) (ho : .closed ∉ es) (k : Key) :
    k ∈ q.dirty ↔ Event.Owed k es := by
  induction h with
  | start => simp [empty, Event.Owed]
  | add x h ih =>
    rw [List.mem_append, not_or] at ho
    rw [mem_dirty_add, Event.owed_append (by simp), ih ho.1, h.open_of_not_mem ho.1]
    simp [eq_comm]
  | @pop es q _ w h ih =>
    rw [List.mem_append, not_or] at ho
    have popped {q' : WorkQueue} {r : Popped} (hp : q.pop = (r, q')) (hr : ∀ x, r ≠ .key x) :
        k ∈ q'.dirty ↔ Event.Owed k (es ++ [.popped w r]) := by
      rw [Event.owed_append (by simp [hr]), eq_of_pop hp hr, ih ho.1]
      simp
    rcases hp : q.pop with ⟨r, q'⟩
    cases r with
    | key x =>
      obtain ⟨-, -, -, hd, -⟩ := pop_key hp
      rw [hd, ih ho.1]
      -- the pop answers the additions of its own key, and of no other
      by_cases hx : k = x
      · subst hx
        simp [Event.not_owed_of_popped]
      · rw [Event.owed_append (by simp [Ne.symm hx])]
        simp [hx]
    | closed | nothing => exact popped hp (by simp)
  | done _ _ ih =>
    rw [List.mem_append, not_or] at ho
    rw [dirty_done, Event.owed_append (by simp), ih ho.1]
    simp
  | shutDown => simp at ho

theorem owed_of_popped {before after : List Event} {w : Nat} {k : Key} (h : Run es q held)
    (he : es = before ++ .popped w (.key k) :: after) : Event.Owed k before := by
  induction h generalizing before after with
  | start => simp at he
  | add _ _ ih | done _ _ ih | shutDown _ ih =>
    rcases Event.split_last he with ⟨-, he, -⟩ | ⟨rest, -, he⟩
    · cases he
    · exact ih he
  | @pop es q _ v h ih =>
    rcases Event.split_last he with ⟨rfl, he, -⟩ | ⟨rest, -, he⟩
    swap
    · exact ih he
    · cases hp : q.pop with
      | mk r q' =>
        rw [hp] at he
        cases he
        obtain ⟨ho, -, hq, -⟩ := pop_key hp
        have dirty := h.consistent_and_holders.1.dirty_of_queued k (by simp [hq])
        refine (h.mem_dirty_iff ?_ k).1 dirty
        rw [← h.closed_iff, ho]
        simp

/-! ### The guarantees -/

theorem guarantees (h : Run es q held) :
    q.Consistent ∧ (held.map Prod.snd).Nodup ∧ (∀ k, k ∈ q.processing ↔ ∃ w, (w, k) ∈ held) ∧
    (∀ k, q.pop.1 = .key k → k ∉ q.processing) ∧
    es.filterMap Event.left? <+: es.filterMap Event.entered? ∧
    (.closed ∉ es → es.filterMap Event.entered? = es.filterMap Event.left? ++ q.queue) ∧
    (∀ before k j after, es = before ++ .added k j :: after → .closed ∉ es →
      (∀ w, .popped w (.key k) ∉ after) → k ∈ q.dirty) ∧
    (∀ before w k after, es = before ++ .popped w (.key k) :: after →
      ∃ earlier j since, before = earlier ++ .added k j :: since ∧
        ∀ v, .popped v (.key k) ∉ since) ∧
    (∀ before after, es = before ++ .closed :: after →
      q.queue = [] ∧ q.dirty = ∅ ∧ q.pop.1 = .closed ∧
        ∀ e ∈ after, e.entered? = none ∧ ∀ w r, e = .popped w r → r = .closed) := by
  obtain ⟨consistent, holders⟩ := h.consistent_and_holders
  refine ⟨consistent, holders.nodup, holders.mem_processing, ?_, h.left_prefix, h.entered_eq,
    ?_, ?_, ?_⟩
  · intro k hk
    obtain ⟨-, -, hq, -⟩ := pop_key (r := q.pop.2) (by rw [← hk])
    exact consistent.idle_of_queued k (by simp [hq])
  · intro before k j after he ho hp
    exact (h.mem_dirty_iff ho k).2 ⟨before, j, after, he, hp⟩
  · intro before w k after he
    exact h.owed_of_popped he
  · intro before after he
    have hc : q.closed = true := h.closed_iff.2 (by simp [he])
    obtain ⟨hq, hd⟩ := consistent.empty_of_closed hc
    have idle := h.idle_after_closed
    rw [he] at idle
    have idle := (List.pairwise_cons.1 (List.pairwise_append.1 idle).2.1).1
    exact ⟨hq, hd, by rw [pop_of_closed hc], fun e hm => idle e hm rfl⟩

theorem guarantees_parked :
    ∃ q, Run [.added ⟨"a", "b"⟩ true, .popped 0 (.key ⟨"a", "b"⟩), .added ⟨"a", "b"⟩ false]
        q [(0, ⟨"a", "b"⟩)] ∧
      q.queue = [] ∧ ⟨"a", "b"⟩ ∈ q.dirty ∧ ⟨"a", "b"⟩ ∈ q.processing := by
  have joins : (WorkQueue.empty.add ⟨"a", "b"⟩).2 = true := by decide
  have taken : (WorkQueue.empty.add ⟨"a", "b"⟩).1.pop.1 = .key ⟨"a", "b"⟩ := by decide
  have parks : ((WorkQueue.empty.add ⟨"a", "b"⟩).1.pop.2.add ⟨"a", "b"⟩).2 = false := by decide
  have run := ((Run.start.add ⟨"a", "b"⟩).pop 0).add ⟨"a", "b"⟩
  rw [joins, taken, parks] at run
  obtain ⟨-, -, held, -, -, -, kept, -⟩ := run.guarantees
  refine ⟨_, run, by decide, ?_, (held _).2 ⟨0, List.mem_singleton_self _⟩⟩
  exact kept [.added ⟨"a", "b"⟩ true, .popped 0 (.key ⟨"a", "b"⟩)] ⟨"a", "b"⟩ false [] rfl
    (by decide) (by simp)

end Run
end Tenancy.WorkQueue
