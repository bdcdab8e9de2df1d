import Tenancy.Json.Record
import Tenancy.Time.Instant

/-!
Conditions. Every reconcile pass leaves two of them behind: whether the object is usable and whether
the pass went through. Setting a condition replaces the first one of its kind, unless that says the
same already; then the time of its last transition stays.
-/

namespace Tenancy

inductive ConditionKind where
  | ready
  | synced
deriving DecidableEq, Repr

inductive ConditionStatus where
  | true
  | false
  | unknown
deriving DecidableEq, Repr

structure Condition where
  kind : ConditionKind
  status : ConditionStatus
  reason : String
  message : String
  since : Instant
deriving DecidableEq, Repr

namespace Condition

def ready (now : Instant) : Condition := ⟨.ready, .true, "Ready", "", now⟩

def notReady (now : Instant) : Condition := ⟨.ready, .false, "NotReady", "", now⟩

def success (now : Instant) : Condition := ⟨.synced, .true, "ReconcileSuccess", "", now⟩

def failure (message : String) (now : Instant) : Condition :=
  ⟨.synced, .false, "ReconcileError", message, now⟩

def unset (kind : ConditionKind) : Condition := ⟨kind, .unknown, "", "", Instant.epoch⟩

def agrees (c d : Condition) : Bool :=
  c.kind == d.kind && c.status == d.status && c.reason == d.reason && c.message == d.message

def get (cs : List Condition) (kind : ConditionKind) : Condition :=
  (cs.find? (·.kind == kind)).getD (unset kind)

def set (c : Condition) : List Condition → List Condition
  | [] => [c]
  | d :: ds => if d.kind = c.kind then (if d.agrees c then d else c) :: ds else d :: set c ds

def setAll (cs batch : List Condition) : List Condition := batch.foldl (fun cs c => c.set cs) cs

end Condition

/-! ### JSON -/

namespace ConditionKind

def text : ConditionKind → String
  | ready => "Ready"
  | synced => "Synced"

def parse? (s : String) : Option ConditionKind := [ready, synced].find? (·.text == s)

def decode? (held : Bool) (j : Json) : Option ConditionKind := (j.variant? held).bind parse?

end ConditionKind

namespace ConditionStatus

def text : ConditionStatus → String
  | .true => "True"
  | .false => "False"
  | .unknown => "Unknown"

def parse? (s : String) : Option ConditionStatus :=
  [ConditionStatus.true, .false, .unknown].find? (·.text == s)

def decode? (held : Bool) (j : Json) : Option ConditionStatus := (j.variant? held).bind parse?

end ConditionStatus

namespace Instant

def encode (t : Instant) : Json := .str t.text

def decode? (j : Json) : Option Instant := j.string?.bind parse?

end Instant

namespace Condition

def encode (c : Condition) : Json :=
  .ofMembers [
    some ("kind", .str c.kind.text), some ("status", .str c.status.text),
    some ("reason", .str c.reason),
    if c.message = "" then none else some ("message", .str c.message),
    some ("lastTransitionTime", c.since.encode)]

def decode? (held : Bool) (j : Json) : Option Condition := do
  let fs ← j.record? ["kind", "status", "reason", "message", "lastTransitionTime"]
  let kind ← fs.required? "kind" (ConditionKind.decode? held)
  let status ← fs.required? "status" (ConditionStatus.decode? held)
  let reason ← fs.required? "reason" Json.string?
  let message ← fs.withDefault? "message" "" Json.string?
  let since ← fs.required? "lastTransitionTime" Instant.decode?
  return ⟨kind, status, reason, message, since⟩

def decodeList? (j : Json) : Option (List Condition) := do
  (← j.record? ["conditions"]).withDefault? "conditions" [] (Json.list? (decode? false))

end Condition
end Tenancy
