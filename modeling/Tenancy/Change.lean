import Tenancy.Resource

/-!
Changes to objects. A change carries every version of the object that it is about. Only an update
that leaves key and generation as they were can be passed over: it changed no specification and
asked for no deletion.
-/

namespace Tenancy

inductive Operation where
  | created
  | updated
  | deleted
  | generic
deriving DecidableEq, Repr

namespace Operation

def text : Operation → String
  | created => "created"
  | updated => "updated"
  | deleted => "deleted"
  | generic => "generic"

def parse? (s : String) : Option Operation :=
  [created, updated, deleted, generic].find? (·.text == s)

end Operation

inductive Change (S : Type) where
  | created (object : Resource S)
  | updated (old new : Resource S)
  | deleted (object : Resource S)
  | generic (object : Resource S)

namespace Change

variable {S : Type}

def operation : Change S → Operation
  | created _ => .created
  | updated _ _ => .updated
  | deleted _ => .deleted
  | generic _ => .generic

def objects : Change S → List (Resource S)
  | created o | deleted o | generic o => [o]
  | updated old new => [old, new]

def latest : Change S → Resource S
  | created o | deleted o | generic o => o
  | updated _ new => new

def key (c : Change S) : Key := c.latest.key

def generationChanged : Change S → Bool
  | updated old new => old.key != new.key || old.metadata.generation != new.metadata.generation
  | _ => true

/-! ### JSON -/

variable [ResourceKind S]

def encode (c : Change S) : Json :=
  .obj (("type", .str c.operation.text) ::
    match c with
    | created o | deleted o | generic o => [("object", o.encode)]
    | updated old new => [("old", old.encode), ("new", new.encode)])

def decodeBody? (op : Operation) (body : Json) : Option (Change S) :=
  let object (make : Resource S → Change S) : Option (Change S) := do
    return make (← (← body.record? ["object"]).required? "object" (Resource.decode? true))
  match op with
  | .created => object .created
  | .deleted => object .deleted
  | .generic => object .generic
  | .updated => do
    let fs ← body.record? ["old", "new"]
    let old ← fs.required? "old" (Resource.decode? true)
    let new ← fs.required? "new" (Resource.decode? true)
    return .updated old new

/-- A change names its operation in the member `type`, or in the first item of an array; it is held
back as a whole until the operation is known. -/
def decode? (j : Json) : Option (Change S) :=
  if j.sound then
    match j with
    | .obj ms => do
      let fs ← Json.fieldsOf? ["type"] ms
      let op ← fs.required? "type" fun j => j.string?.bind Operation.parse?
      decodeBody? op (.obj (ms.filter (·.1 != "type")))
    | .arr (.str s :: xs) => do decodeBody? (← Operation.parse? s) (.arr xs)
    | _ => none
  else none

end Change
end Tenancy
