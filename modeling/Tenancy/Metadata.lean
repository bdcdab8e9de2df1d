import Std.Data.ExtTreeMap
import Tenancy.Json.Record
import Tenancy.Time.Instant
import Tenancy.Condition
import Tenancy.Uid

/-!
Identity and metadata of stored objects. An object is known by its namespace and name; it carries
the version of its last write, the generation of its specification, the finalizers that keep it from
vanishing, and the mark of a deletion that was asked for.
-/

namespace Tenancy

structure Key where
  ns : String
  name : String
deriving DecidableEq, Repr, Inhabited

namespace Key

instance : Ord Key := ⟨compareLex (compareOn Key.ns) (compareOn Key.name)⟩

instance : Std.TransOrd Key := inferInstanceAs (Std.TransCmp (compareLex _ _))

instance : Std.LawfulEqOrd Key where
  eq_of_compare {a b} h := by
    obtain ⟨h₁, h₂⟩ := Ordering.then_eq_eq.1 h
    have hn : a.ns = b.ns := Std.LawfulEqCmp.eq_of_compare h₁
    have hm : a.name = b.name := Std.LawfulEqCmp.eq_of_compare h₂
    cases a; cases b; simp_all

def text (k : Key) : String := s!"{k.ns}/{k.name}"

/-- The name under which the retries of an object are counted. -/
def identity (k : Key) : String := s!"{k.ns}.{k.name}"

end Key

structure TypeMeta where
  apiVersion : String
  kind : String
deriving DecidableEq, Repr, Inhabited

def apiVersion : String := "org.nddr.yndd.io/v1alpha1"

def defaultNamespace : String := "default"

structure Metadata where
  name : String
  ns : String
  uid : Option Uid
  resourceVersion : UInt64
  generation : UInt64
  finalizers : List String
  deletedAt : Option Instant
  annotations : Std.ExtTreeMap String String

namespace Metadata

def new (ns name : String) : Metadata := ⟨name, ns, none, 0, 0, [], none, ∅⟩

def key (m : Metadata) : Key := ⟨m.ns, m.name⟩

def wasDeleted (m : Metadata) : Bool := m.deletedAt.isSome

def hasFinalizer (m : Metadata) (f : String) : Bool := m.finalizers.contains f

/-- Appends a finalizer, unless it is there, and tells whether it was missing. -/
def addFinalizer (m : Metadata) (f : String) : Bool × Metadata :=
  if m.hasFinalizer f then (false, m)
  else (true, { m with finalizers := m.finalizers ++ [f] })

/-- Removes every occurrence of a finalizer, and tells whether there was one. -/
def removeFinalizer (m : Metadata) (f : String) : Bool × Metadata :=
  let kept := m.finalizers.filter (· != f)
  (kept.length != m.finalizers.length, { m with finalizers := kept })

end Metadata

/-! ### JSON -/

namespace TypeMeta

def fieldNames : List String := ["apiVersion", "kind"]

def encodeMembers (t : TypeMeta) : List (String × Json) :=
  [("apiVersion", .str t.apiVersion), ("kind", .str t.kind)]

def ofFields? (fs : Json.Fields) : Option TypeMeta := do
  return ⟨← fs.withDefault? "apiVersion" "" Json.string?, ← fs.withDefault? "kind" "" Json.string?⟩

def decode? (j : Json) : Option TypeMeta := do ofFields? (← j.record? fieldNames)

end TypeMeta

namespace Metadata

def fieldNames : List String :=
  ["name", "namespace", "uid", "resourceVersion", "generation", "finalizers", "deletionTimestamp",
    "annotations"]

def encode (m : Metadata) : Json :=
  .ofMembers [
    some ("name", .str m.name), some ("namespace", .str m.ns),
    Json.unlessNone "uid" (fun u => .str u.text) m.uid,
    some ("resourceVersion", .ofNat m.resourceVersion.toNat),
    some ("generation", .ofNat m.generation.toNat),
    Json.unlessEmpty "finalizers" .str m.finalizers,
    Json.unlessNone "deletionTimestamp" Instant.encode m.deletedAt,
    if m.annotations.isEmpty then none
      else some ("annotations", .obj (m.annotations.toList.map fun p => (p.1, .str p.2)))]

def decode? (j : Json) : Option Metadata := do
  let fs ← j.record? fieldNames
  let name ← fs.required? "name" Json.string?
  let ns ← fs.withDefault? "namespace" defaultNamespace Json.string?
  let uid ← fs.optional? "uid" fun j => j.string?.bind Uid.parse?
  let resourceVersion ← fs.withDefault? "resourceVersion" 0 Json.word64?
  let generation ← fs.withDefault? "generation" 0 Json.word64?
  let finalizers ← fs.withDefault? "finalizers" [] (Json.list? Json.string?)
  let deletedAt ← fs.optional? "deletionTimestamp" Instant.decode?
  let annotations ← fs.withDefault? "annotations" ∅ fun j =>
    (j.members? Json.string?).map (·.foldl (fun m p => m.insert p.1 p.2) ∅)
  return ⟨name, ns, uid, resourceVersion, generation, finalizers, deletedAt, annotations⟩

end Metadata
end Tenancy
