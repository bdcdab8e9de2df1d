import Mathlib.Logic.Basic
import Tenancy.Queue.Lobby

/-! What a lobby does to its queue. Rings and waiters do not touch it: whoever comes back with a key
has popped it, and whoever comes back without one has changed nothing. -/

namespace Tenancy.Lobby

variable {l : Lobby} {id : Nat} {k : Key}

@[simp] theorem queue_ring (l : Lobby) : l.ring.queue = l.queue := by
  unfold ring
  split <;> rfl

@[simp] theorem queue_ringIf (l : Lobby) (joined : Bool) : (l.ringIf joined).queue = l.queue := by
  unfold ringIf
  split
  · exact queue_ring l
  · rfl

theorem add_eq (l : Lobby) (k : Key) :
    l.add k = { l with queue := (l.queue.add k).1 }.ringIf (l.queue.add k).2 := rfl

theorem done_eq (l : Lobby) (k : Key) :
    l.done k = { l with queue := (l.queue.done k).1 }.ringIf (l.queue.done k).2 := rfl

theorem queue_add (l : Lobby) (k : Key) : (l.add k).queue = (l.queue.add k).1 :=
  queue_ringIf _ _

theorem queue_done (l : Lobby) (k : Key) : (l.done k).queue = (l.queue.done k).1 :=
  queue_ringIf _ _

theorem queue_leave (l : Lobby) (id : Nat) : (l.leave id).queue = l.queue := by
  unfold leave
  split
  · exact queue_ringIf _ _
  · rfl

def Served (q : WorkQueue) (r : Looked × Lobby) : Prop :=
  (∀ k, r.1 = .key k → q.pop = (.key k, r.2.queue)) ∧ ((∀ k, r.1 ≠ .key k) → r.2.queue = q)

theorem served_look (l : Lobby) (id : Nat) : Served l.queue (l.look id) := by
  unfold look
  split
  · exact ⟨nofun, fun _ => queue_leave l id⟩
  · rename_i k q hq
    refine ⟨?_, fun h => absurd rfl (h k)⟩
    rintro _ ⟨⟩
    rw [hq, queue_leave, queue_ringIf]
  · split <;> exact ⟨nofun, fun _ => rfl⟩

theorem served_pop (l : Lobby) (id : Nat) : Served l.queue (l.pop id) := by
  have first := served_look (l.enter id) id
  unfold pop
  split
  · rename_i m hm
    have same : m.queue = l.queue := by
      rw [hm] at first
      exact first.2 nofun
    have second := served_look (m.enter id) id
    rwa [show (m.enter id).queue = l.queue from same] at second
  · exact first

theorem served_resume (l : Lobby) (id : Nat) : Served l.queue (l.resume id) :=
  served_pop (l.drop id) id

end Tenancy.Lobby
