import Tenancy.Metadata
import Tenancy.Register
import Tenancy.Strategy

/-!
Resources: what is declared of an object, and what is observed of it. The specification belongs to
those who declare; conditions and observed state belong to the controllers. Observed state comes
into being once and is never reset.
-/

namespace Tenancy

structure Observed where
  status : String
  reason : String
  registers : List Register
  strategy : Option Strategy
deriving BEq, Repr, Inhabited

namespace Observed

def blank : Observed := ⟨"", "", [], none⟩

def up (registers : Registers) (strategy : Option Strategy) : Observed :=
  ⟨"up", "", registers.bindings, strategy⟩

def down (reason : String) : Observed := ⟨"down", reason, [], none⟩

end Observed

structure Status where
  conditions : List Condition
  observed : Option Observed
deriving Inhabited

class ResourceKind (S : Type) extends BEq S where
  title : String
  finalizer : String
  slot : String
  blank : S
  registers : S → List Register
  strategy : S → Option Strategy
  encode : S → Json
  decode? : Bool → Json → Option S

structure Resource (S : Type) where
  typeMeta : TypeMeta
  metadata : Metadata
  spec : S
  status : Status

def unknownStatus : String := "unknown"

namespace Resource

variable {S : Type}

def key (r : Resource S) : Key := r.metadata.key

def version (r : Resource S) : UInt64 := r.metadata.resourceVersion

def wasDeleted (r : Resource S) : Bool := r.metadata.wasDeleted

/-! ### Observed state -/

def allocated (r : Resource S) : Bool := r.status.observed.isSome

def observed (r : Resource S) : Observed := r.status.observed.getD .blank

def setObserved (r : Resource S) (o : Observed) : Resource S :=
  { r with status := { r.status with observed := some o } }

/-- Gives the object an observed state, unless it has one, and tells whether it had none. -/
def allocate (r : Resource S) : Bool × Resource S :=
  match r.status.observed with
  | some _ => (false, r)
  | none => (true, r.setObserved .blank)

def withObserved (r : Resource S) : Resource S := r.allocate.2

def statusText (r : Resource S) : String := (r.status.observed.map (·.status)).getD unknownStatus

def reason (r : Resource S) : String := r.observed.reason

def stateRegisters (r : Resource S) : Registers := .ofList r.observed.registers

def stateStrategy (r : Resource S) : Option Strategy := r.observed.strategy

def setStatus (r : Resource S) (s : String) : Resource S :=
  r.setObserved { r.observed with status := s }

def setReason (r : Resource S) (s : String) : Resource S :=
  r.setObserved { r.observed with reason := s }

def setStateRegisters (r : Resource S) (rs : Registers) : Resource S :=
  r.setObserved { r.observed with registers := rs.bindings }

def setStateStrategy (r : Resource S) (s : Option Strategy) : Resource S :=
  r.setObserved { r.observed with strategy := s }

/-! ### Conditions -/

def condition (r : Resource S) (kind : ConditionKind) : Condition :=
  Condition.get r.status.conditions kind

def setConditions (r : Resource S) (cs : List Condition) : Resource S :=
  { r with status := { r.status with conditions := Condition.setAll r.status.conditions cs } }

/-! ### Finalizers -/

def withFinalizer (r : Resource S) (f : String) : Resource S :=
  { r with metadata := (r.metadata.addFinalizer f).2 }

def withoutFinalizer (r : Resource S) (f : String) : Resource S :=
  { r with metadata := (r.metadata.removeFinalizer f).2 }

/-! ### Declarations -/

variable [ResourceKind S]

def new (ns name : String) : Resource S :=
  ⟨⟨apiVersion, ResourceKind.title S⟩, .new ns name, ResourceKind.blank, ⟨[], none⟩⟩

def registers (r : Resource S) : Registers := .ofList (ResourceKind.registers r.spec)

def strategy (r : Resource S) : Option Strategy := ResourceKind.strategy r.spec

def hasOwnFinalizer (r : Resource S) : Bool := r.metadata.hasFinalizer (ResourceKind.finalizer S)

/-- The kind that the object says it is of is its own, or none. -/
def fits (r : Resource S) : Bool :=
  r.typeMeta.kind == "" || r.typeMeta.kind == ResourceKind.title S

end Resource

/-! ### JSON -/

namespace Observed

def encode (o : Observed) : Json :=
  .obj [
    ("status", .str o.status), ("reason", .str o.reason),
    ("register", .arr (o.registers.map Register.encode)),
    ("addressAllocationStrategy", .ofOption Strategy.encode o.strategy)]

def decode? (j : Json) : Option Observed := do
  let fs ← j.record? ["status", "reason", "register", "addressAllocationStrategy"]
  let status ← fs.withDefault? "status" "" Json.string?
  let reason ← fs.withDefault? "reason" "" Json.string?
  let registers ← fs.withDefault? "register" [] (Json.list? Register.decode?)
  let strategy ← fs.optional? "addressAllocationStrategy" Strategy.decode?
  return ⟨status, reason, registers, strategy⟩

end Observed

namespace Status

def encode (slot : String) (s : Status) : Json :=
  .ofMembers [
    Json.unlessEmpty "conditions" Condition.encode s.conditions,
    Json.unlessNone slot Observed.encode s.observed]

def decode? (slot : String) (j : Json) : Option Status := do
  let fs ← j.openRecord? [slot] ["conditions"]
  let conditions ← fs.withDefault? "conditions" [] (Json.list? (Condition.decode? true))
  let observed ← fs.optional? slot Observed.decode?
  return ⟨conditions, observed⟩

end Status

namespace Resource

variable {S : Type} [ResourceKind S]

def encode (r : Resource S) : Json :=
  .obj (r.typeMeta.encodeMembers ++ [
    ("metadata", r.metadata.encode), ("spec", ResourceKind.encode r.spec),
    ("status", r.status.encode (ResourceKind.slot S))])

/-- Decodes an object; one that was held back may also write variants in the form that has no
payload. -/
def decode? (held : Bool) (j : Json) : Option (Resource S) := do
  let fs ← j.openRecord? ["metadata", "spec", "status"] TypeMeta.fieldNames
  let typeMeta ← TypeMeta.ofFields? fs
  let metadata ← fs.required? "metadata" Metadata.decode?
  let spec ← fs.withDefault? "spec" ResourceKind.blank (ResourceKind.decode? held)
  let status ← fs.withDefault? "status" ⟨[], none⟩ (Status.decode? (ResourceKind.slot S))
  return ⟨typeMeta, metadata, spec, status⟩

end Resource
end Tenancy
