import Mathlib.Data.List.Nodup
import Tenancy.Queue

/-! What the calls do to the three collections of a work queue, and how these hang together. No key
waits twice, whoever waits is dirty and not in work, and a dirty key waits or is in work. Every call
keeps this; a release does so because the key that it names is in work. -/

namespace Tenancy.WorkQueue

variable {q : WorkQueue} {k x : Key}

/-! ### The calls -/

theorem closed_add (q : WorkQueue) (k : Key) : (q.add k).1.closed = q.closed := by
  unfold add
  split
  · rfl
  · dsimp only
    split <;> rfl

theorem processing_add (q : WorkQueue) (k : Key) : (q.add k).1.processing = q.processing := by
  unfold add
  split
  · rfl
  · dsimp only
    split <;> rfl

theorem mem_dirty_add : x ∈ (q.add k).1.dirty ↔ x ∈ q.dirty ∨ q.closed = false ∧ x = k := by
  have mem : x ∈ q.dirty.insert k ↔ x ∈ q.dirty ∨ x = k := by
    rw [Std.ExtTreeSet.mem_insert, Std.LawfulEqCmp.compare_eq_iff_eq, or_comm, eq_comm]
  unfold add
  split
  · rename_i h
    rw [Bool.or_eq_true, Std.ExtTreeSet.contains_iff_mem] at h
    rcases h with h | h
    · simp [h]
    · constructor
      · exact Or.inl
      · rintro (hx | ⟨-, rfl⟩)
        · exact hx
        · exact h
  · rename_i h
    rw [Bool.or_eq_true, not_or, Bool.not_eq_true] at h
    dsimp only
    split <;> simp [mem, h.1]

theorem queue_add (q : WorkQueue) (k : Key) :
    (q.add k).1.queue = q.queue ++ if (q.add k).2 then [k] else [] := by
  unfold add
  split
  · simp
  · dsimp only
    split <;> simp

theorem add_joins : (q.add k).2 = true ↔ q.closed = false ∧ k ∉ q.dirty ∧ k ∉ q.processing := by
  simp only [← Std.ExtTreeSet.contains_iff_mem]
  unfold add
  split
  · rename_i h
    rw [Bool.or_eq_true] at h
    rcases h with h | h <;> simp [h]
  · rename_i h
    rw [Bool.or_eq_true, not_or, Bool.not_eq_true] at h
    dsimp only
    split <;> simp_all

theorem pop_of_closed (h : q.closed = true) : q.pop = (.closed, q) := by
  rw [pop, if_pos h]

theorem pop_key {r : WorkQueue} (h : q.pop = (.key k, r)) :
    q.closed = false ∧ r.closed = false ∧ q.queue = k :: r.queue ∧
      (∀ x, x ∈ r.dirty ↔ x ∈ q.dirty ∧ x ≠ k) ∧
      ∀ x, x ∈ r.processing ↔ x ∈ q.processing ∨ x = k := by
  unfold pop at h
  split at h
  · cases h
  · rename_i hc
    split at h
    · cases h
    · rename_i ks hq
      cases h
      refine ⟨by simpa using hc, by simpa using hc, hq, fun x => ?_, fun x => ?_⟩
      · rw [Std.ExtTreeSet.mem_erase, ne_eq, Std.LawfulEqCmp.compare_eq_iff_eq, and_comm, eq_comm]
      · rw [Std.ExtTreeSet.mem_insert, Std.LawfulEqCmp.compare_eq_iff_eq, or_comm, eq_comm]

theorem eq_of_pop {r : Popped} {q' : WorkQueue} (h : q.pop = (r, q')) (hr : ∀ k, r ≠ .key k) :
    q' = q := by
  unfold pop at h
  split at h
  · cases h
    rfl
  · split at h
    · cases h
      rfl
    · cases h
      exact absurd rfl (hr _)

theorem closed_of_pop {r : WorkQueue} (h : q.pop = (.closed, r)) : q.closed = true := by
  unfold pop at h
  split at h
  · assumption
  · split at h <;> cases h

theorem pop_nothing {r : WorkQueue} (h : q.pop = (.nothing, r)) :
    q.closed = false ∧ q.queue = [] := by
  unfold pop at h
  split at h
  · cases h
  · rename_i open_
    split at h
    · exact ⟨Bool.eq_false_iff.2 open_, by assumption⟩
    · cases h

theorem closed_done (q : WorkQueue) (k : Key) : (q.done k).1.closed = q.closed := by
  unfold done
  dsimp only
  split <;> rfl

theorem dirty_done (q : WorkQueue) (k : Key) : (q.done k).1.dirty = q.dirty := by
  unfold done
  dsimp only
  split <;> rfl

theorem mem_processing_done : x ∈ (q.done k).1.processing ↔ x ∈ q.processing ∧ x ≠ k := by
  have mem : x ∈ q.processing.erase k ↔ x ∈ q.processing ∧ x ≠ k := by
    rw [Std.ExtTreeSet.mem_erase, ne_eq, Std.LawfulEqCmp.compare_eq_iff_eq, and_comm, eq_comm]
  unfold done
  dsimp only
  split <;> exact mem

theorem queue_done (q : WorkQueue) (k : Key) :
    (q.done k).1.queue = q.queue ++ if (q.done k).2 then [k] else [] := by
  unfold done
  dsimp only
  split <;> simp

theorem done_joins : (q.done k).2 = true ↔ k ∈ q.dirty ∧ q.closed = false := by
  rw [← Std.ExtTreeSet.contains_iff_mem]
  unfold done
  dsimp only
  split <;> simp_all

theorem not_add_joins (hc : q.closed = true) : ¬(q.add k).2 = true := by
  intro hj
  have open_ := (add_joins.1 hj).1
  rw [hc] at open_
  cases open_

theorem not_done_joins (hc : q.closed = true) : ¬(q.done k).2 = true := by
  intro hj
  have open_ := (done_joins.1 hj).2
  rw [hc] at open_
  cases open_

/-! ### Their invariant -/

structure Consistent (q : WorkQueue) : Prop where
  nodup : q.queue.Nodup
  dirty_of_queued : ∀ k ∈ q.queue, k ∈ q.dirty
  idle_of_queued : ∀ k ∈ q.queue, k ∉ q.processing
  queued_or_processing : ∀ k ∈ q.dirty, k ∈ q.queue ∨ k ∈ q.processing
  empty_of_closed : q.closed = true → q.queue = [] ∧ q.dirty = ∅

namespace Consistent

theorem empty : Consistent .empty where
  nodup := List.nodup_nil
  dirty_of_queued k hk := by cases hk
  idle_of_queued k hk := by cases hk
  queued_or_processing k hk := absurd hk Std.ExtTreeSet.not_mem_empty
  empty_of_closed h := by cases h

theorem add (h : q.Consistent) (k : Key) : (q.add k).1.Consistent := by
  by_cases hj : (q.add k).2 = true
  · have hq : (q.add k).1.queue = q.queue ++ [k] := by rw [queue_add, if_pos hj]
    obtain ⟨ho, hd, hp⟩ := add_joins.1 hj
    constructor
    · rw [hq]
      exact List.nodup_append.2 ⟨h.nodup, List.nodup_singleton k, fun a ha b hb hab =>
        hd (List.mem_singleton.1 hb ▸ hab ▸ h.dirty_of_queued a ha)⟩
    · intro x hx
      rw [hq, List.mem_append, List.mem_singleton] at hx
      rw [mem_dirty_add]
      exact hx.imp (h.dirty_of_queued x) fun hx => ⟨ho, hx⟩
    · intro x hx
      rw [hq, List.mem_append, List.mem_singleton] at hx
      rw [processing_add]
      rcases hx with hx | rfl
      · exact h.idle_of_queued x hx
      · exact hp
    · intro x hx
      rw [mem_dirty_add] at hx
      rw [hq, processing_add, List.mem_append, List.mem_singleton]
      rcases hx with hx | ⟨-, rfl⟩
      · exact (h.queued_or_processing x hx).imp_left Or.inl
      · exact .inl (.inr rfl)
    · intro hc
      rw [closed_add, ho] at hc
      cases hc
  · have hq : (q.add k).1.queue = q.queue := by rw [queue_add, if_neg hj, List.append_nil]
    constructor
    · exact hq ▸ h.nodup
    · intro x hx
      exact mem_dirty_add.2 (.inl (h.dirty_of_queued x (hq ▸ hx)))
    · intro x hx
      rw [processing_add]
      exact h.idle_of_queued x (hq ▸ hx)
    · intro x hx
      rw [hq, processing_add]
      rcases mem_dirty_add.1 hx with hx | ⟨ho, rfl⟩
      · exact h.queued_or_processing x hx
      · by_contra hn
        rw [not_or] at hn
        refine hj (add_joins.2 ⟨ho, fun hd => ?_, hn.2⟩)
        exact (h.queued_or_processing x hd).elim hn.1 hn.2
    · intro hc
      rw [closed_add] at hc
      obtain ⟨he, hd⟩ := h.empty_of_closed hc
      refine ⟨hq.trans he, Std.ExtTreeSet.eq_empty_iff_forall_not_mem.2 fun x hx => ?_⟩
      rcases mem_dirty_add.1 hx with hx | ⟨ho, -⟩
      · exact Std.ExtTreeSet.not_mem_empty (hd ▸ hx)
      · exact absurd hc (by simp [ho])

theorem pop (h : q.Consistent) : q.pop.2.Consistent := by
  rcases hp : q.pop with ⟨r, q'⟩
  cases r with
  | key k =>
    obtain ⟨-, ho, hq, hd, hw⟩ := pop_key hp
    have hnd := List.nodup_cons.1 (hq ▸ h.nodup)
    have mem (x : Key) (hx : x ∈ q'.queue) : x ∈ q.queue := hq ▸ List.mem_cons_of_mem k hx
    have ne (x : Key) (hx : x ∈ q'.queue) : x ≠ k := fun he => hnd.1 (he ▸ hx)
    constructor
    · exact hnd.2
    · intro x hx
      exact (hd x).2 ⟨h.dirty_of_queued x (mem x hx), ne x hx⟩
    · intro x hx hxw
      rcases (hw x).1 hxw with hxw | hxk
      · exact h.idle_of_queued x (mem x hx) hxw
      · exact ne x hx hxk
    · intro x hx
      obtain ⟨hx, hxk⟩ := (hd x).1 hx
      rcases h.queued_or_processing x hx with hx | hx
      · rw [hq, List.mem_cons] at hx
        exact .inl (hx.resolve_left hxk)
      · exact .inr ((hw x).2 (.inl hx))
    · intro hc
      rw [ho] at hc
      cases hc
  | closed | nothing =>
    exact eq_of_pop hp (by simp) ▸ h

theorem done (h : q.Consistent) (hk : k ∈ q.processing) : (q.done k).1.Consistent := by
  have hkq : k ∉ q.queue := fun hx => h.idle_of_queued k hx hk
  have mem (x : Key) :
      x ∈ (q.done k).1.queue ↔ x ∈ q.queue ∨ (k ∈ q.dirty ∧ q.closed = false) ∧ x = k := by
    rw [queue_done, List.mem_append, ← done_joins]
    split <;> simp_all
  constructor
  · rw [queue_done]
    split
    · exact List.nodup_append.2 ⟨h.nodup, List.nodup_singleton k, fun a ha b hb hab =>
        hkq (List.mem_singleton.1 hb ▸ hab ▸ ha)⟩
    · rw [List.append_nil]
      exact h.nodup
  · intro x hx
    rw [dirty_done]
    rcases (mem x).1 hx with hx | ⟨⟨hd, -⟩, rfl⟩
    · exact h.dirty_of_queued x hx
    · exact hd
  · intro x hx hw
    obtain ⟨hw, hne⟩ := mem_processing_done.1 hw
    rcases (mem x).1 hx with hx | ⟨-, he⟩
    · exact h.idle_of_queued x hx hw
    · exact hne he
  · intro x hx
    rw [dirty_done] at hx
    rw [mem, mem_processing_done]
    by_cases hxk : x = k
    · subst hxk
      have ho : q.closed = false := by
        by_contra hc
        have := (h.empty_of_closed (by simpa using hc)).2
        exact Std.ExtTreeSet.not_mem_empty (this ▸ hx)
      exact .inl (.inr ⟨⟨hx, ho⟩, rfl⟩)
    · exact (h.queued_or_processing x hx).imp Or.inl fun hw => ⟨hw, hxk⟩
  · intro hc
    rw [closed_done] at hc
    obtain ⟨he, hd⟩ := h.empty_of_closed hc
    rw [queue_done, if_neg (not_done_joins hc), he, dirty_done]
    exact ⟨rfl, hd⟩

theorem shutDown (q : WorkQueue) : q.shutDown.Consistent where
  nodup := List.nodup_nil
  dirty_of_queued k hk := by cases hk
  idle_of_queued k hk := by cases hk
  queued_or_processing k hk := absurd hk Std.ExtTreeSet.not_mem_empty
  empty_of_closed _ := ⟨rfl, rfl⟩

end Consistent

/-! ### Several keys at once -/

def addAll (q : WorkQueue) (ks : List Key) : WorkQueue := ks.foldl (fun q k => (q.add k).1) q

theorem Consistent.addAll (h : q.Consistent) (ks : List Key) : (q.addAll ks).Consistent := by
  induction ks generalizing q with
  | nil => exact h
  | cons k ks ih => exact ih (h.add k)

theorem closed_addAll (q : WorkQueue) (ks : List Key) : (q.addAll ks).closed = q.closed := by
  induction ks generalizing q with
  | nil => rfl
  | cons k ks ih => exact (ih _).trans (closed_add q k)

theorem processing_addAll (q : WorkQueue) (ks : List Key) :
    (q.addAll ks).processing = q.processing := by
  induction ks generalizing q with
  | nil => rfl
  | cons k ks ih => exact (ih _).trans (processing_add q k)

theorem mem_dirty_addAll {ks : List Key} (ho : q.closed = false) :
    k ∈ (q.addAll ks).dirty ↔ k ∈ q.dirty ∨ k ∈ ks := by
  induction ks generalizing q with
  | nil => simp [addAll]
  | cons x xs ih =>
    have step : q.addAll (x :: xs) = (q.add x).1.addAll xs := rfl
    rw [step, ih ((closed_add q x).trans ho), mem_dirty_add, List.mem_cons, or_assoc]
    simp [ho]

end Tenancy.WorkQueue
