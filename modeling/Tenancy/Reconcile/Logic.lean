import Tenancy.Organization
import Tenancy.Reconcile.Error
import Tenancy.Reconcile.Program

/-!
The logic of one kind, called from a reconcile pass at five points. It works on the object in memory
and may ask for what lies outside of it: the organizations, the pace, and time.
-/

namespace Tenancy

inductive Hook where
  | prepare
  | apply
  | cleanUp
  | release
  | delay
deriving DecidableEq, Repr

inductive Ask where
  | organizations
  | nextDelay (identity : String)
  | forget (identity : String)
  | sleep (d : Span)
  | entered (hook : Hook)

@[reducible] def Ask.Answer : Ask → Type
  | organizations => Except StoreError (List Organization)
  | nextDelay _ => Span
  | forget _ | sleep _ | entered _ => Unit

abbrev Inquiry (α : Type) := Program Ask Ask.Answer α

/-- The object that a hook leaves, and whether the hook succeeded. -/
abbrev Hooked (S : Type) := Resource S × Except ReconcileError Unit

structure Logic (S : Type) where
  prepare : Resource S → Inquiry (Hooked S)
  apply : Resource S → Inquiry (Hooked S)
  /-- Cleans up before the finalizer goes; `false` if that is not finished. -/
  cleanUp : Resource S → Inquiry (Except ReconcileError Bool)
  release : Resource S → Inquiry Unit
  delay : Resource S → Inquiry Span

namespace Logic

variable {S : Type}

def paced (apply : Resource S → Inquiry (Hooked S)) : Logic S where
  prepare o := return (o.withObserved, .ok ())
  apply := apply
  cleanUp _ := return .ok true
  release o := .question (Ask.forget o.key.identity)
  delay o := .question (Ask.nextDelay o.key.identity)

end Logic
end Tenancy
