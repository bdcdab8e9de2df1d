import Tenancy.Reconcile.Error
import Tenancy.Text.Blank

/-!
Settings. Each comes from a variable of its own; one that is absent has a default, and one that
cannot be read is an error. A number is decimal digits with an optional plus before and blanks
around them, and fits an unsigned word of its width.
-/

namespace Tenancy

structure BusSettings where
  servers : List String
  name : String
  connectTimeout : Span
  requestTimeout : Span
  root : String
deriving DecidableEq, Repr

structure Settings where
  reconcileTimeout : Span
  shortWait : Span
  steadyWait : Span
  threshold : UInt32
  errorBackoff : Span
  workers : UInt64
  bus : Option BusSettings
deriving DecidableEq, Repr

namespace BusSettings

def default : BusSettings :=
  ⟨["nats://localhost:4222"], "org-controller", .ofSeconds 10, .ofSeconds 5, "org"⟩

end BusSettings

/-! ### Numbers -/

inductive NumberError where
  | empty
  | invalidDigit
  | tooLarge
deriving DecidableEq, Repr

namespace NumberError

def message : NumberError → String
  | empty => "cannot parse integer from empty string"
  | invalidDigit => "invalid digit found in string"
  | tooLarge => "number too large to fit in target type"

end NumberError

def readDigits (limit : Nat) : Nat → List Char → Except NumberError Nat
  | n, [] => .ok n
  | n, c :: cs =>
    if '0' ≤ c ∧ c ≤ '9' then
      let n := n * 10 + (c.toNat - '0'.toNat)
      if n < limit then readDigits limit n cs else .error .tooLarge
    else .error .invalidDigit

def readNumber (limit : Nat) (cs : List Char) : Except NumberError Nat :=
  match cs with
  | [] => .error .empty
  | ['+'] => .error .invalidDigit
  | '+' :: cs => readDigits limit 0 cs
  | cs => readDigits limit 0 cs

/-! ### Variables -/

namespace Settings

def default : Settings :=
  ⟨.ofSeconds 60, .ofSeconds 1, .ofSeconds 60, 5, .ofSeconds 5, 4, none⟩

abbrev Lookup := String → Option String

def number (lookup : Lookup) (name : String) (limit default : Nat) : Except ReconcileError Nat :=
  match lookup name with
  | none => .ok default
  | some raw =>
    match readNumber limit (Text.trim raw.toList) with
    | .ok n => .ok n
    | .error e => .error (.configuration (s!"{name}=" ++ Text.quoted raw ++ ": " ++ e.message))

def span (lookup : Lookup) (name : String) (default : Span) : Except ReconcileError Span :=
  (number lookup name UInt64.size default.seconds).map .ofSeconds

def splitCommas : List Char → List (List Char)
  | [] => [[]]
  | c :: cs =>
    if c = ',' then [] :: splitCommas cs
    else
      match splitCommas cs with
      | [] => [[c]]
      | s :: ss => (c :: s) :: ss

/-- The bus is used if its address is given; its root counts only then. -/
def busOf (lookup : Lookup) : Option BusSettings :=
  (lookup "NATS_URL").map fun url =>
    { BusSettings.default with
      servers := (splitCommas url.toList).map fun cs => String.ofList (Text.trim cs)
      root := (lookup "NATS_SUBJECT_PREFIX").getD BusSettings.default.root }

def variableNames : List String :=
  ["ORG_CONTROLLER_RECONCILE_TIMEOUT_SECS", "ORG_CONTROLLER_SHORT_WAIT_SECS",
    "ORG_CONTROLLER_STEADY_WAIT_SECS", "ORG_CONTROLLER_SPEEDY_THRESHOLD",
    "ORG_CONTROLLER_ERROR_BACKOFF_SECS", "ORG_CONTROLLER_WORKERS", "NATS_URL",
    "NATS_SUBJECT_PREFIX"]

def ofLookup (lookup : Lookup) : Except ReconcileError Settings := do
  let reconcileTimeout ←
    span lookup "ORG_CONTROLLER_RECONCILE_TIMEOUT_SECS" default.reconcileTimeout
  let shortWait ← span lookup "ORG_CONTROLLER_SHORT_WAIT_SECS" default.shortWait
  let steadyWait ← span lookup "ORG_CONTROLLER_STEADY_WAIT_SECS" default.steadyWait
  let threshold ←
    number lookup "ORG_CONTROLLER_SPEEDY_THRESHOLD" UInt32.size default.threshold.toNat
  let errorBackoff ← span lookup "ORG_CONTROLLER_ERROR_BACKOFF_SECS" default.errorBackoff
  let workers ← number lookup "ORG_CONTROLLER_WORKERS" UInt64.size default.workers.toNat
  return ⟨reconcileTimeout, shortWait, steadyWait, .ofNat threshold, errorBackoff, .ofNat workers,
    busOf lookup⟩

end Settings
end Tenancy
