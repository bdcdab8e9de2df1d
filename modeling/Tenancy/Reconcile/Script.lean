import Tenancy.Reconcile.Logic

/-!
Scripted logic: it does what a script says, to see what a pass makes of it. Every hook reports that
it was entered and then takes its time.
-/

namespace Tenancy

structure Script where
  stall : Hook → Span
  allocate : Bool
  prepareError : Option ReconcileError
  status : Option String
  reason : Option String
  applyError : Option ReconcileError
  cleanUp : Except ReconcileError Bool
  delay : Span

namespace Script

variable {S : Type}

def default : Script := ⟨fun _ => ⟨0⟩, false, none, none, none, none, .ok true, .ofSeconds 1⟩

def enter (c : Script) (h : Hook) : Inquiry Unit := do
  .question (Ask.entered h)
  .question (Ask.sleep (c.stall h))

def ending : Option ReconcileError → Except ReconcileError Unit
  | some e => .error e
  | none => .ok ()

def logic (c : Script) : Logic S where
  prepare o := do
    c.enter .prepare
    return (if c.allocate then o.withObserved else o, ending c.prepareError)
  apply o := do
    c.enter .apply
    let o := c.status.elim o o.setStatus
    return (c.reason.elim o o.setReason, ending c.applyError)
  cleanUp _ := do
    c.enter .cleanUp
    return c.cleanUp
  release _ := c.enter .release
  delay _ := do
    c.enter .delay
    return c.delay

end Script
end Tenancy
