import Tenancy.Change
import Tenancy.Store.Error

/-!
Stores of one kind of object. Every write but the last one of an object draws a new version; a write
that holds a version other than the current one is refused. Specification and metadata are written
apart from the status, and neither write touches the part of the other. An object with finalizers is
only marked by a deletion; it vanishes with its last finalizer. Each write that changes something
yields one change.
-/

namespace Tenancy

structure Store (S : Type) where
  objects : Std.ExtTreeMap Key (Resource S)
  version : UInt64

structure Written (S α : Type) where
  answer : Except StoreError α
  store : Store S
  change : Option (Change S)

namespace Store

variable {S : Type}

def empty : Store S := ⟨∅, 0⟩

def get? (s : Store S) (key : Key) : Option (Resource S) := s.objects[key]?

def size (s : Store S) : Nat := s.objects.size

def list (s : Store S) : List (Resource S) := s.objects.toList.map (·.2)

def draw (s : Store S) (o : Resource S) : Resource S :=
  { o with metadata := { o.metadata with resourceVersion := s.version + 1 } }

def put (s : Store S) (o : Resource S) : Store S := ⟨s.objects.insert o.key o, s.version + 1⟩

def remove (s : Store S) (key : Key) : Store S := { s with objects := s.objects.erase key }

def refuse {α : Type} (s : Store S) (e : StoreError) : Written S α := ⟨.error e, s, none⟩

variable [ResourceKind S]

def missing (S : Type) [ResourceKind S] (key : Key) : StoreError :=
  .notFound (ResourceKind.title S) key.text

def get (s : Store S) (key : Key) : Except StoreError (Resource S) :=
  match s.get? key with
  | some o => .ok o
  | none => .error (missing S key)

/-- The store gives a new object its identifier, its first generation and no deletion mark. -/
def create (s : Store S) (uid : Uid) (o : Resource S) : Written S (Resource S) :=
  match s.get? o.key with
  | some _ => s.refuse (.alreadyExists (ResourceKind.title S) o.key.text)
  | none =>
    let o := s.draw { o with metadata :=
      { o.metadata with uid := some uid, generation := 1, deletedAt := none } }
    ⟨.ok o, s.put o, some (.created o)⟩

/-- Removes an object without finalizers; marks one that has some, unless it is marked. -/
def delete (s : Store S) (now : Instant) (key : Key) : Written S Unit :=
  match s.get? key with
  | none => s.refuse (missing S key)
  | some current =>
    if current.metadata.finalizers.isEmpty then
      ⟨.ok (), s.remove key, some (.deleted current)⟩
    else if current.wasDeleted then ⟨.ok (), s, none⟩
    else
      let marked := s.draw { current with metadata :=
        { current.metadata with
          deletedAt := some now, generation := current.metadata.generation + 1 } }
      ⟨.ok (), s.put marked, some (.updated current marked)⟩

/-- The current object, for a writer that holds its version. -/
def held (s : Store S) (o : Resource S) : Except StoreError (Resource S) :=
  match s.get? o.key with
  | none => .error (missing S o.key)
  | some current =>
    if o.version = current.version then .ok current
    else .error (.conflict (ResourceKind.title S) o.key.text o.version current.version)

/-- What an update makes of the current object: everything is the writer's but the status and what
the store itself keeps; a new specification is a new generation. -/
def revise (current o : Resource S) : Resource S :=
  { o with
    status := current.status
    metadata := { o.metadata with
      uid := current.metadata.uid
      deletedAt := current.metadata.deletedAt
      generation :=
        if current.spec == o.spec then current.metadata.generation
        else current.metadata.generation + 1 } }

/-- Writes specification and metadata. A marked object without finalizers vanishes. -/
def update (s : Store S) (o : Resource S) : Written S (Resource S) :=
  match s.held o with
  | .error e => s.refuse e
  | .ok current =>
    let next := revise current o
    if next.wasDeleted && next.metadata.finalizers.isEmpty then
      ⟨.ok next, s.remove o.key, some (.deleted next)⟩
    else
      let next := s.draw next
      ⟨.ok next, s.put next, some (.updated current next)⟩

def updateStatus (s : Store S) (o : Resource S) : Written S (Resource S) :=
  match s.held o with
  | .error e => s.refuse e
  | .ok current =>
    let next := s.draw { current with status := o.status }
    ⟨.ok next, s.put next, some (.updated current next)⟩

end Store
end Tenancy
