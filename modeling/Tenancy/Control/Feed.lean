import Tenancy.Change

/-!
Feeds of changes. A feed keeps the changes that its reader has not taken yet, but no more than the
newest 1024 of them.
-/

namespace Tenancy

structure Feed (S : Type) where
  backlog : List (Change S)
  active : Bool
  /-- The feed is filled by hand and not by a store. -/
  byHand : Bool
  /-- The reader has begun, and has not looked at the feed yet. -/
  fresh : Bool

namespace Feed

variable {S : Type}

def open_ (byHand : Bool) : Feed S := ⟨[], true, byHand, false⟩

/-- How many changes a slow reader may fall behind without losing any. -/
def capacity : Nat := 1024

def push (f : Feed S) (c : Change S) : Feed S :=
  if f.active then
    let backlog := f.backlog ++ [c]
    { f with backlog := backlog.drop (backlog.length - capacity) }
  else f

def publish (f : Feed S) (c : Change S) : Feed S := if f.byHand then f else f.push c

def takes (f : Feed S) : Bool := f.active && f.byHand

def emit (f : Feed S) (c : Change S) : Feed S := if f.byHand then f.push c else f

/-- No more changes are taken; those that are there can still be read. -/
def close (f : Feed S) : Feed S := { f with active := false }

def cut (f : Feed S) : Feed S := { f with active := false, backlog := [], fresh := false }

def read (f : Feed S) : Feed S := { f with fresh := true }

def due (f : Feed S) : Bool := f.fresh || !f.backlog.isEmpty

def take (f : Feed S) : Option (Change S) × Feed S :=
  (f.backlog.head?, { f with backlog := f.backlog.tail, fresh := false })

end Feed
end Tenancy
