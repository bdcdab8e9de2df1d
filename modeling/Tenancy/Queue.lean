import Std.Data.ExtTreeSet
import Tenancy.Metadata

/-!
Work queues. A key that waits is not queued again; one that is being worked on is not handed out
again before it is released, and an addition in between is kept until then. A queue that was shut
down hands out nothing and takes nothing.
-/

namespace Tenancy

structure WorkQueue where
  queue : List Key
  dirty : Std.ExtTreeSet Key
  processing : Std.ExtTreeSet Key
  closed : Bool

namespace WorkQueue

def empty : WorkQueue := ⟨[], ∅, ∅, false⟩

/-- The queue afterwards, and whether a key has joined it. -/
def add (q : WorkQueue) (k : Key) : WorkQueue × Bool :=
  if q.closed || q.dirty.contains k then (q, false)
  else
    let q := { q with dirty := q.dirty.insert k }
    if q.processing.contains k then (q, false) else ({ q with queue := q.queue ++ [k] }, true)

inductive Popped where
  | closed
  | key (k : Key)
  | nothing
deriving DecidableEq, Repr

def pop (q : WorkQueue) : Popped × WorkQueue :=
  if q.closed then (.closed, q)
  else
    match q.queue with
    | [] => (.nothing, q)
    | k :: ks =>
      (.key k, { q with
        queue := ks, dirty := q.dirty.erase k, processing := q.processing.insert k })

/-- Releases a key; the second part says whether it has joined the queue again. -/
def done (q : WorkQueue) (k : Key) : WorkQueue × Bool :=
  let q := { q with processing := q.processing.erase k }
  if q.dirty.contains k && !q.closed then ({ q with queue := q.queue ++ [k] }, true)
  else (q, false)

def shutDown (q : WorkQueue) : WorkQueue := { q with queue := [], dirty := ∅, closed := true }

def size (q : WorkQueue) : Nat := q.queue.length

end WorkQueue
end Tenancy
