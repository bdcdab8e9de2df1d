import Tenancy.Phase
import Tenancy.Store.Error
import Tenancy.Text.Quoted
import Tenancy.Time.Span

/-!
Why reconciling fails. Failures to write a status or a finalizer keep their cause, and an error is a
missing object or a conflict if its innermost cause is.
-/

namespace Tenancy

inductive ReconcileError where
  | notFound (what : String)
  | organizationNotFound (name : String)
  | conflict (what : String)
  | timeout (limit : Span)
  | unexpectedResource (expected actual : String)
  | store (message : String)
  | statusUpdate (kind : String) (cause : ReconcileError)
  | finalizer (action : String) (cause : ReconcileError)
  | missingRegister (kind : String)
  | invalidRegisterName (name : String)
  | invalidStep (cause : StepError)
  | busConnection (message : String)
  | busPublish (message : String)
  | busSubscribe (message : String)
  | serialization (message : String)
  | deserialization (message : String)
  | configuration (message : String)
deriving DecidableEq, Repr, Inhabited

namespace ReconcileError

def message : ReconcileError → String
  | notFound what => s!"resource not found: {what}"
  | organizationNotFound name => s!"organization not found: {name}"
  | conflict what => s!"conflict writing {what}: object was modified concurrently"
  | timeout limit => "reconcile timed out after " ++ limit.text
  | unexpectedResource expected actual =>
    s!"unexpected {expected} object: got kind " ++ Text.quoted actual
  | store message => s!"store error: {message}"
  | statusUpdate kind cause => s!"cannot update status of {kind} resource: " ++ cause.message
  | finalizer action cause => s!"cannot {action} finalizer: " ++ cause.message
  | missingRegister kind => s!"critical register {kind} not found in registry"
  | invalidRegisterName name => s!"wrong input in get register {name}"
  | invalidStep cause => "invalid reconcile step: " ++ cause.message
  | busConnection message => s!"NATS connection error: {message}"
  | busPublish message => s!"NATS publish error: {message}"
  | busSubscribe message => s!"NATS subscribe error: {message}"
  | serialization message => s!"Serialization error: {message}"
  | deserialization message => s!"Deserialization error: {message}"
  | configuration message => s!"Configuration error: {message}"

def isNotFound : ReconcileError → Bool
  | notFound _ => true
  | statusUpdate _ cause | finalizer _ cause => cause.isNotFound
  | _ => false

def isConflict : ReconcileError → Bool
  | conflict _ => true
  | statusUpdate _ cause | finalizer _ cause => cause.isConflict
  | _ => false

def isTimeout : ReconcileError → Bool
  | timeout _ => true
  | _ => false

def ofStore (e : StoreError) : ReconcileError :=
  match e with
  | .notFound _ _ => notFound e.message
  | .conflict kind key _ _ | .alreadyExists kind key => conflict s!"{kind} {key}"
  | .backend message => store message

end ReconcileError
end Tenancy
