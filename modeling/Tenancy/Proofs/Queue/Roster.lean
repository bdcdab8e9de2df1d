import Tenancy.Proofs.Queue.Consistent

/-! Workers at a queue, each with or without a job for a key. As long as they keep to the queue,
whoever has a key has got it from there, and nobody else has it. -/

namespace Tenancy

variable {P : Type} {q q' : WorkQueue} {jobs : List (Option (Key × P))} {i j : Nat} {k : Key}
  {p p' : P}

/-- A key that a worker has is in work, at no other worker. -/
structure Roster (q : WorkQueue) (jobs : List (Option (Key × P))) : Prop where
  queue : q.Consistent
  held : ∀ (i : Nat) k p, jobs[i]? = some (some (k, p)) → k ∈ q.processing
  unique : ∀ (i j : Nat) k p p', jobs[i]? = some (some (k, p)) → jobs[j]? = some (some (k, p')) →
    i = j

namespace Roster

theorem of_set {job : Option (Key × P)} (h : (jobs.set i job)[j]? = some (some (k, p))) :
    i = j ∧ job = some (k, p) ∨ i ≠ j ∧ jobs[j]? = some (some (k, p)) := by
  rw [List.getElem?_set] at h
  split at h
  · rename_i hi
    split at h
    · exact .inl ⟨hi, Option.some.inj h⟩
    · cases h
  · rename_i hi
    exact .inr ⟨hi, h⟩

theorem of_free (queue : q.Consistent) (free : ∀ (i : Nat) x, jobs[i]? ≠ some (some x)) :
    Roster q jobs :=
  ⟨queue, fun i _ _ h => absurd h (free i _), fun i _ _ _ _ h => absurd h (free i _)⟩

theorem of_queue (h : Roster q jobs) (queue : q'.Consistent)
    (processing : q'.processing = q.processing) : Roster q' jobs :=
  ⟨queue, fun i k p at_ => processing ▸ h.held i k p at_, h.unique⟩

theorem go_on (h : Roster q jobs) (at_ : jobs[i]? = some (some (k, p))) (p' : P) :
    Roster q (jobs.set i (some (k, p'))) := by
  refine ⟨h.queue, fun j l r hr => ?_, fun j j' l r r' hr hr' => ?_⟩
  · rcases of_set hr with ⟨-, he⟩ | ⟨-, hr⟩
    · cases he
      exact h.held i k p at_
    · exact h.held j l r hr
  · rcases of_set hr with ⟨rfl, he⟩ | ⟨hi, hr⟩
    · cases he
      rcases of_set hr' with ⟨rfl, -⟩ | ⟨-, hr'⟩
      · rfl
      · exact h.unique i j' k p r' at_ hr'
    · rcases of_set hr' with ⟨rfl, he⟩ | ⟨-, hr'⟩
      · cases he
        exact h.unique j i k r p hr at_
      · exact h.unique j j' l r r' hr hr'

theorem idle_of_pop (h : Roster q jobs) (next : q.pop = (.key k, q')) (j : Nat) (p : P) :
    jobs[j]? ≠ some (some (k, p)) := by
  obtain ⟨-, -, queued, -⟩ := WorkQueue.pop_key next
  -- what has waited in the queue is at no worker yet
  exact fun hp => h.queue.idle_of_queued k (by simp [queued]) (h.held j k p hp)

theorem begin_ (h : Roster q jobs) (next : q.pop = (.key k, q')) (i : Nat) (p : P) :
    Roster q' (jobs.set i (some (k, p))) := by
  obtain ⟨-, -, -, -, processing⟩ := WorkQueue.pop_key next
  have idle := h.idle_of_pop next
  have consistent := h.queue.pop
  rw [next] at consistent
  refine ⟨consistent, fun j l r hr => ?_, fun j j' l r r' hr hr' => ?_⟩
  · rcases of_set hr with ⟨-, he⟩ | ⟨-, hr⟩
    · cases he
      exact (processing k).2 (.inr rfl)
    · exact (processing l).2 (.inl (h.held j l r hr))
  · rcases of_set hr with ⟨rfl, he⟩ | ⟨-, hr⟩
    · cases he
      rcases of_set hr' with ⟨rfl, -⟩ | ⟨-, hr'⟩
      · rfl
      · exact absurd hr' (idle j' r')
    · rcases of_set hr' with ⟨-, he⟩ | ⟨-, hr'⟩
      · cases he
        exact absurd hr (idle j r)
      · exact h.unique j j' l r r' hr hr'

theorem finish (h : Roster q jobs) (at_ : jobs[i]? = some (some (k, p))) :
    Roster (q.done k).1 (jobs.set i none) := by
  have old {j : Nat} {l : Key} {r : P} (hr : (jobs.set i none)[j]? = some (some (l, r))) :
      i ≠ j ∧ jobs[j]? = some (some (l, r)) := by
    rcases of_set hr with ⟨-, he⟩ | hr
    · cases he
    · exact hr
  refine ⟨h.queue.done (h.held i k p at_), fun j l r hr => ?_,
    fun j j' l r r' hr hr' => h.unique j j' l r r' (old hr).2 (old hr').2⟩
  obtain ⟨hi, had⟩ := old hr
  -- another worker has another key
  refine WorkQueue.mem_processing_done.2 ⟨h.held j l r had, fun hl => hi ?_⟩
  subst hl
  exact h.unique i j l p r at_ had

end Roster
end Tenancy
