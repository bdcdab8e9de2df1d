import Tenancy.Reconcile.Logic

/-!
Guarding objects by the finalizer of their kind. Both ways are idempotent, and write only when the
list of finalizers changes.
-/

namespace Tenancy

abbrev Amendment (S α : Type) := Program (Resource S) (fun _ => Except StoreError (Resource S)) α

structure Finalizer (S : Type) where
  /-- Sees to it that the object has the finalizer; it is refreshed by the write that this takes. -/
  add : Resource S → Amendment S (Hooked S)
  remove : Resource S → Amendment S (Hooked S)

namespace Finalizer

variable {S : Type} [ResourceKind S]

def addInStore (o : Resource S) : Amendment S (Hooked S) := do
  let (missing, metadata) := o.metadata.addFinalizer (ResourceKind.finalizer S)
  let o := { o with metadata }
  if !missing then return (o, .ok ())
  match ← Program.question o with
  | .ok stored => return (stored, .ok ())
  | .error e => return (o, .error (.ofStore e))

/-- An object that has vanished has lost its finalizer. -/
def removeInStore (o : Resource S) : Amendment S (Hooked S) := do
  let (present, metadata) := o.metadata.removeFinalizer (ResourceKind.finalizer S)
  let o := { o with metadata }
  if !present then return (o, .ok ())
  match ← Program.question o with
  | .ok stored => return (stored, .ok ())
  | .error e => return (o, if e.isNotFound then .ok () else .error (.ofStore e))

def inStore : Finalizer S := ⟨addInStore, removeInStore⟩

end Finalizer
end Tenancy
