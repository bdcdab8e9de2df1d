/-!
What a store refuses.
-/

namespace Tenancy

inductive StoreError where
  | notFound (kind key : String)
  | alreadyExists (kind key : String)
  | conflict (kind key : String) (held current : UInt64)
  | backend (message : String)
deriving DecidableEq, Repr

namespace StoreError

def message : StoreError → String
  | notFound kind key => s!"{kind} {key} not found"
  | alreadyExists kind key => s!"{kind} {key} already exists"
  | conflict kind key held current =>
    s!"conflict updating {kind} {key}: resource version {held} is stale (current {current})"
  | backend message => s!"store backend error: {message}"

def isNotFound : StoreError → Bool
  | notFound _ _ => true
  | _ => false

def isConflict : StoreError → Bool
  | conflict _ _ _ _ | alreadyExists _ _ => true
  | _ => false

end StoreError
end Tenancy
