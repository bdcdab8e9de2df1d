import Tenancy.Control.Lifecycle
import Tenancy.Json.Reader

/-!
Start of the service. The settings are read, then the manifest if one is named; its objects seed the
stores, organizations first, and the loops of both kinds are set up. The first of these that fails
ends the start.
-/

namespace Tenancy

structure Manifest where
  organizations : List Organization
  deployments : List Deployment

inductive StartupError where
  | settings (cause : ReconcileError)
  | unreadable (path : String)
  | malformed (path : String)
  | seed (noun : String) (cause : StoreError)
  | noBus
  | setUp (noun : String) (cause : ReconcileError)
deriving DecidableEq, Repr

namespace StartupError

def message : StartupError → String
  | settings _ => "Invalid controller configuration"
  | unreadable path => s!"Failed to read manifest {path}"
  | malformed path => s!"Failed to parse manifest {path}"
  | seed noun _ => s!"Failed to seed {noun}"
  | noBus => "Failed to connect to NATS"
  | setUp noun _ => s!"Failed to set up {noun} controller"

/-- The text of what lies behind it, if that is an error of its own. -/
def cause? : StartupError → Option String
  | settings cause | setUp _ cause => some cause.message
  | seed _ cause => some cause.message
  | unreadable _ | malformed _ | noBus => none

end StartupError

namespace Manifest

def decode? (j : Json) : Option Manifest := do
  let fs ← j.record? ["organizations", "deployments"]
  let organizations ←
    fs.withDefault? "organizations" [] (Json.list? (Resource.decode? false))
  let deployments ← fs.withDefault? "deployments" [] (Json.list? (Resource.decode? false))
  return ⟨organizations, deployments⟩

def load (path : String) (file : Option (List UInt8)) : Except StartupError Manifest :=
  match file.map Json.Glyph.ofBytes with
  | none => .error (.unreadable path)
  | some glyphs =>
    if glyphs.all (·.isSome) then
      match (Json.readGlyphs glyphs).bind decode? with
      | some m => .ok m
      | none => .error (.malformed path)
    else .error (.unreadable path)

end Manifest

namespace Startup

def manifestVariable : String := "ORG_CONTROLLER_MANIFESTS"

abbrev Files := String → Option (List UInt8)

def manifest (lookup : Settings.Lookup) (files : Files) : Except StartupError Manifest :=
  match lookup manifestVariable with
  | none => .ok ⟨[], []⟩
  | some path => Manifest.load path (files path)

def seedAll {S : Type} [Hosted S] : List (Resource S) → Cluster → Except StartupError Cluster
  | [], s => .ok s
  | o :: os, s =>
    match s.create o with
    | (.ok _, s) => seedAll os s
    | (.error e, _) => .error (.seed (Hosted.noun S) e)

def setUp (k : ObjectKind) (s : Cluster) : Except StartupError Cluster :=
  match s.setUpOne false k with
  | .ok (_, s) => .ok s
  | .error e => .error (.setUp (k.on fun S => Hosted.noun S) e)

def run (lookup : Settings.Lookup) (files : Files) (clock : Instant) (base : Uid) :
    Except StartupError Cluster := do
  let settings ← (Settings.ofLookup lookup).mapError .settings
  let m ← manifest lookup files
  let s ← seedAll m.organizations (Cluster.start settings clock base)
  let s ← seedAll m.deployments s
  if settings.bus.isSome then throw .noBus
  let s ← setUp .organization s
  let s ← setUp .deployment s
  return { s with signal := true }

def exitCode : Except StartupError Cluster → UInt32
  | .ok _ => 0
  | .error _ => 1

end Startup
end Tenancy
