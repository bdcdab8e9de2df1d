import Tenancy.Control.Loop
import Tenancy.Proofs.Queue.Consistent
import Tenancy.Proofs.Queue.Lobby

/-! Loops of any kind: what becomes of the feed, the queue, the timers and the jobs of the workers
when a loop does something. -/

namespace Tenancy

namespace Feed

variable {S : Type} {f : Feed S}

theorem backlog_publish_eq (active : f.active = true) (byHand : f.byHand = false) (c : Change S) :
    (f.publish c).backlog = (f.backlog ++ [c]).drop (f.backlog.length + 1 - capacity) := by
  unfold publish push
  rw [byHand, active]
  simp only [Bool.false_eq_true, if_false, if_true, List.length_append, List.length_singleton]

/-- A feed of a store loses nothing as long as its reader is not too far behind. -/
theorem backlog_publish (active : f.active = true) (byHand : f.byHand = false)
    (room : f.backlog.length < capacity) (c : Change S) :
    (f.publish c).backlog = f.backlog ++ [c] := by
  rw [backlog_publish_eq active byHand, Nat.sub_eq_zero_of_le room, List.drop_zero]

theorem active_publish (f : Feed S) (c : Change S) : (f.publish c).active = f.active := by
  unfold publish push
  split
  · rfl
  · split <;> rfl

theorem byHand_publish (f : Feed S) (c : Change S) : (f.publish c).byHand = f.byHand := by
  unfold publish push
  split
  · rfl
  · split <;> rfl

end Feed

def Worker.job? {S : Type} : Worker S → Option (Key × Pass S Outcome)
  | .working key pass _ => some (key, pass)
  | .asleep key rest _ _ => some (key, rest)
  | .free | .waiting | .ended => none

def Worker.outcome? {S : Type} : Worker S → Option (Key × Outcome)
  | .working key (.done r) _ => some (key, r)
  | _ => none

/-- The wait after which the key of a pass comes back. -/
def Outcome.wait? (backoff : Span) : Outcome → Option Span
  | .ok wait => wait
  | .error _ => some backoff

namespace Loop

variable {S : Type} (l : Loop S)

def hearOwn (c : Option (Change S)) : Loop S := { l with own := c.elim l.own l.own.publish }

theorem queue_enqueueAll (ks : List Key) :
    (l.enqueueAll ks).lobby.queue = l.lobby.queue.addAll ks := by
  induction ks generalizing l with
  | nil => rfl
  | cons k ks ih =>
    refine (ih (l.enqueue k)).trans ?_
    rw [enqueue, Lobby.queue_add]
    rfl

theorem enqueueAll_eq (ks : List Key) :
    l.enqueueAll ks = { l with lobby := ks.foldl Lobby.add l.lobby } := by
  induction ks generalizing l with
  | nil => rfl
  | cons k ks ih => exact ih (l.enqueue k)

def news : List Key :=
  match l.own.backlog with
  | [] => []
  | c :: _ => if c.generationChanged then c.objects.map (·.key) else []

theorem takeOwn_eq (free : l.arrived = []) :
    l.takeOwn = { l with own := l.own.take.2, arrived := l.news } := by
  unfold takeOwn news
  cases hb : l.own.backlog with
  | nil =>
    have none_ : l.own.take.1 = none := by rw [Feed.take, hb, List.head?_nil]
    dsimp only
    rw [none_, ← free]
  | cons c cs =>
    have some_ : l.own.take.1 = some c := by rw [Feed.take, hb, List.head?_cons]
    dsimp only
    rw [some_]
    dsimp only
    split
    · rfl
    · rw [← free]

theorem enqueueArrived_eq {k : Key} {ks : List Key} (next : l.arrived = k :: ks) :
    l.enqueueArrived = { l with arrived := ks }.enqueue k := by
  rw [enqueueArrived, next]

theorem launch_eq (os : List (Resource S)) :
    l.launch (.ok os) = { l with
      lobby := (l.enqueueAll (os.map (·.key))).lobby, own := l.own.read
      related := l.related.map Feed.read, state := .running
      workers := List.replicate (max 1 l.settings.workers.toNat) .free } := by
  unfold launch
  simp only [enqueueAll_eq]

theorem queue_fire (t : Timer) : (l.fire t).lobby.queue = (l.lobby.queue.add t.key).1 :=
  Lobby.queue_add l.lobby t.key

theorem queue_finish (i now rank : Nat) (k : Key) (r : Outcome) :
    (l.finish i now rank k r).lobby.queue = (l.lobby.queue.done k).1 :=
  Lobby.queue_done l.lobby k

theorem timers_finish (i now rank : Nat) (k : Key) (r : Outcome) :
    (l.finish i now rank k r).timers = l.timers ++
      ((r.wait? l.settings.errorBackoff).map fun d =>
        ⟨now + l.timing.wait now d, rank, k⟩).toList := by
  unfold finish setWorker Outcome.wait?
  cases r with
  | error e => rfl
  | ok wait =>
    cases wait with
    | none => exact (List.append_nil _).symm
    | some d => rfl

/-! ### Jobs -/

def jobs : List (Option (Key × Pass S Outcome)) := l.workers.map Worker.job?

theorem jobs_setWorker (i : Nat) (w : Worker S) : (l.setWorker i w).jobs = l.jobs.set i w.job? :=
  List.map_set

theorem jobs_finish (i now rank : Nat) (k : Key) (r : Outcome) :
    (l.finish i now rank k r).jobs = l.jobs.set i none :=
  List.map_set

variable {l} {i : Nat} {w w' : Worker S}

theorem getElem?_jobs (at_ : l.workers[i]? = some w) : l.jobs[i]? = some w.job? := by
  rw [jobs, List.getElem?_map, at_, Option.map_some]

theorem jobs_setWorker_same (at_ : l.workers[i]? = some w) (same : w'.job? = w.job?) :
    (l.setWorker i w').jobs = l.jobs := by
  obtain ⟨hi, rfl⟩ := List.getElem?_eq_some_iff.1 at_
  have hj : i < (l.workers.map Worker.job?).length := by rwa [List.length_map]
  rw [jobs_setWorker, same, jobs, ← List.getElem_map Worker.job? (h := hj), List.set_getElem_self]

end Loop
end Tenancy
