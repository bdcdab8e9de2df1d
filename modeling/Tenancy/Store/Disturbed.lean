import Tenancy.Store

/-!
Stores whose calls are disturbed by plan. Each call of a method takes the next disturbance that is
planned for it: a refusal instead of the call, or another client's writes just before it. If these
fail, so does the call.
-/

namespace Tenancy

inductive Method where
  | get
  | list
  | update
  | updateStatus
deriving DecidableEq, Repr

inductive Disturbance where
  | refuse (e : StoreError)
  | annotate
  /-- Another client takes away the finalizers and deletes the object. -/
  | vanish
  | delete
  | pass
deriving DecidableEq, Repr

structure Disturbed (S : Type) where
  store : Store S
  plan : List (Method × Disturbance)

structure Called (S α : Type) where
  answer : Except StoreError α
  after : Disturbed S
  changes : List (Change S)

namespace Disturbed

variable {S : Type} [ResourceKind S]

def empty : Disturbed S := ⟨.empty, []⟩

def take (m : Method) : List (Method × Disturbance) → Disturbance × List (Method × Disturbance)
  | [] => (.pass, [])
  | (n, d) :: ps =>
    if n = m then (d, ps)
    else
      let (e, ps) := take m ps
      (e, (n, d) :: ps)

/-- What a disturbance does to the store, and whether the call goes on. -/
def disturb (s : Store S) (now : Instant) (key : Option Key) (d : Disturbance) :
    Except StoreError Unit × Store S × List (Change S) :=
  let onObject (write : Resource S → Except StoreError Unit × Store S × List (Change S)) :=
    match key with
    | none => (.error (.backend ""), s, [])
    | some k =>
      match s.get k with
      | .error e => (.error e, s, [])
      | .ok o => write o
  match d with
  | .pass => (.ok (), s, [])
  | .refuse e => (.error e, s, [])
  | .delete =>
    match key with
    | none => (.error (.backend ""), s, [])
    | some k =>
      let w := s.delete now k
      (w.answer, w.store, w.change.toList)
  | .annotate => onObject fun o =>
    let w := s.update { o with metadata :=
      { o.metadata with annotations := o.metadata.annotations.insert "raced" "yes" } }
    (w.answer.map fun _ => (), w.store, w.change.toList)
  | .vanish => onObject fun o =>
    let w := s.update { o with metadata := { o.metadata with finalizers := [] } }
    match w.answer with
    | .error e => (.error e, w.store, w.change.toList)
    | .ok _ =>
      let v := w.store.delete now o.key
      (.ok (), v.store, w.change.toList ++ v.change.toList)

def call {α : Type} (s : Disturbed S) (now : Instant) (m : Method) (key : Option Key)
    (run : Store S → Written S α) : Called S α :=
  let (d, plan) := take m s.plan
  match disturb s.store now key d with
  | (.error e, store, changes) => ⟨.error e, ⟨store, plan⟩, changes⟩
  | (.ok (), store, changes) =>
    let w := run store
    ⟨w.answer, ⟨w.store, plan⟩, changes ++ w.change.toList⟩

def get (s : Disturbed S) (now : Instant) (key : Key) : Called S (Resource S) :=
  s.call now .get (some key) fun s => ⟨s.get key, s, none⟩

def list (s : Disturbed S) (now : Instant) : Called S (List (Resource S)) :=
  s.call now .list none fun s => ⟨.ok s.list, s, none⟩

def update (s : Disturbed S) (now : Instant) (o : Resource S) : Called S (Resource S) :=
  s.call now .update (some o.key) (·.update o)

def updateStatus (s : Disturbed S) (now : Instant) (o : Resource S) : Called S (Resource S) :=
  s.call now .updateStatus (some o.key) (·.updateStatus o)

end Disturbed
end Tenancy
