import Tenancy.Proofs.Control.Closing
import Tenancy.Proofs.Json.Bytes
import Tenancy.Proofs.Settings
import Tenancy.Proofs.Store.Sown
import Tenancy.Startup

/-! How the service starts. What is wrong is found in a fixed order: the settings, the file of the
manifest, its text, the first object of each kind whose key was there before, and at last that there
is no worker. If nothing is wrong the stores hold what the manifest declares, and the loops wait to
be launched; they come to their end once they are told to. -/

namespace Tenancy.Startup

variable {settings : Settings} {clock : Instant} {base : Uid}

def identifier (base : Uid) (n : Nat) : Uid := ⟨base.bits + BitVec.ofNat 128 (n + 1)⟩

def filled (settings : Settings) (clock : Instant) (base : Uid) (orgs : Store OrganizationSpec)
    (deps : Store DeploymentSpec) (created : Nat) : Cluster :=
  let s := Cluster.start settings clock base
  { s with
    orgs := { s.orgs with store := ⟨orgs, []⟩ }
    deps := { s.deps with store := ⟨deps, []⟩ }
    created }

def ready (settings : Settings) (clock : Instant) (base : Uid) (orgs : Store OrganizationSpec)
    (deps : Store DeploymentSpec) (created : Nat) : Cluster :=
  let s := filled settings clock base orgs deps created
  { s with
    orgs := { s.orgs with loop := some (.new settings .native Organization.logic false false) }
    deps := { s.deps with loop := some (.new settings .native Deployment.logic false true) }
    signal := true }

/-! ### Seeds -/

def FirstRepeated {S : Type} (os : List (Resource S)) (o : Resource S) : Prop :=
  ∃ before after, os = before ++ o :: after ∧ (before.map (·.key)).Nodup ∧
    o.key ∈ before.map (·.key)

theorem FirstRepeated.not_nodup {S : Type} {os : List (Resource S)}
    {o : Resource S} (h : FirstRepeated os o) : ¬(os.map (·.key)).Nodup := by
  obtain ⟨before, after, rfl, -, again⟩ := h
  intro distinct
  rw [List.map_append, List.map_cons, List.nodup_append'] at distinct
  exact distinct.2.2 again List.mem_cons_self

section

variable {S : Type} [Hosted S] {place : Store S → Nat → Cluster} {uid : Nat → Uid}

/-- What is written of a kind reaches the store in its place, and nothing else. -/
structure Plot (place : Store S → Nat → Cluster) (uid : Nat → Uid) : Prop where
  write : ∀ (st : Store S) (n : Nat) (run : Store S → Written S (Resource S)),
    (place st n).write run = ((run st).answer, place (run st).store n)
  uid : ∀ (st : Store S) (n : Nat), (place st n).uid = uid n
  count : ∀ (st : Store S) (n : Nat),
    { place st n with created := (place st n).created + 1 } = place st (n + 1)

theorem Plot.create (plot : Plot place uid) (st : Store S) (n : Nat) (o : Resource S) :
    (place st n).create o = ((st.create (uid n) o).answer, place (st.create (uid n) o).store
      (if (st.create (uid n) o).answer.isOk then n + 1 else n)) := by
  unfold Cluster.create
  rw [plot.uid, plot.write]
  dsimp only
  cases (st.create (uid n) o).answer with
  | ok r =>
    rw [plot.count]
    rfl
  | error e => rfl

end

variable {lookup : Settings.Lookup} {files : Files}

def Holds (files : Files) (path text : String) : Prop := files path = some text.toUTF8.data.toList

inductive Declared (lookup : Settings.Lookup) (files : Files) : Manifest → Prop
  | unnamed (unset : lookup manifestVariable = none) : Declared lookup files ⟨[], []⟩
  | named {path text : String} {j : Json} {m : Manifest}
    (set : lookup manifestVariable = some path) (holds : Holds files path text)
    (value : Json.read text = some j) (decoded : Manifest.decode? j = some m) :
    Declared lookup files m

theorem load_text {path text : String} (holds : Holds files path text) :
    Manifest.load path (files path) =
      match (Json.read text).bind Manifest.decode? with
      | some m => .ok m
      | none => .error (.malformed path) := by
  have readable : (Json.Glyph.ofBytes text.toUTF8.data.toList).all (·.isSome) = true :=
    Json.Glyph.readable_iff.2 ⟨text, rfl⟩
  unfold Manifest.load
  rw [holds, Option.map_some]
  dsimp only
  rw [if_pos readable, Json.Glyph.ofBytes_toUTF8]
  rfl

theorem load_unreadable {path : String} (unreadable : ∀ text, ¬Holds files path text) :
    Manifest.load path (files path) = .error (.unreadable path) := by
  unfold Manifest.load
  cases file : files path with
  | none => rfl
  | some bytes =>
    have stray : ¬(Json.Glyph.ofBytes bytes).all (·.isSome) = true := by
      intro readable
      obtain ⟨text, rfl⟩ := Json.Glyph.readable_iff.1 readable
      exact unreadable text file
    rw [Option.map_some]
    dsimp only
    rw [if_neg stray]

theorem manifest_named {path : String} (named : lookup manifestVariable = some path) :
    manifest lookup files = Manifest.load path (files path) := by
  rw [manifest, named]

theorem Declared.manifest_eq {m : Manifest} (h : Declared lookup files m) :
    manifest lookup files = .ok m := by
  cases h with
  | unnamed unset => rw [manifest, unset]
  | named set holds value decoded =>
    rw [manifest_named set, load_text holds, value, Option.bind_some, decoded]

/-! ### The start -/

inductive Result (lookup : Settings.Lookup) (files : Files) (clock : Instant) (base : Uid) :
    Except StartupError Cluster → Prop
  | settings {e : ReconcileError} (refused : Settings.ofLookup lookup = .error e) :
    Result lookup files clock base (.error (.settings e))
  | unreadable {settings : Settings} {path : String}
    (accepted : Settings.ofLookup lookup = .ok settings)
    (named : lookup manifestVariable = some path) (unreadable : ∀ text, ¬Holds files path text) :
    Result lookup files clock base (.error (.unreadable path))
  | malformed {settings : Settings} {path text : String}
    (accepted : Settings.ofLookup lookup = .ok settings)
    (named : lookup manifestVariable = some path) (holds : Holds files path text)
    (undecoded : (Json.read text).bind Manifest.decode? = none) :
    Result lookup files clock base (.error (.malformed path))
  | organization {settings : Settings} {m : Manifest} {o : Organization}
    (accepted : Settings.ofLookup lookup = .ok settings) (declared : Declared lookup files m)
    (repeated : FirstRepeated m.organizations o) :
    Result lookup files clock base
      (.error (.seed "organization" (.alreadyExists "Organization" o.key.text)))
  | deployment {settings : Settings} {m : Manifest} {d : Deployment}
    (accepted : Settings.ofLookup lookup = .ok settings) (declared : Declared lookup files m)
    (distinct : (m.organizations.map (·.key)).Nodup) (repeated : FirstRepeated m.deployments d) :
    Result lookup files clock base
      (.error (.seed "deployment" (.alreadyExists "Deployment" d.key.text)))
  | unmanned {settings : Settings} {m : Manifest}
    (accepted : Settings.ofLookup lookup = .ok settings) (declared : Declared lookup files m)
    (organizations : (m.organizations.map (·.key)).Nodup)
    (deployments : (m.deployments.map (·.key)).Nodup) (idle : settings.workers = 0) :
    Result lookup files clock base (.error (.setUp "organization"
      (.configuration "organization controller needs at least one worker")))
  | ready {settings : Settings} {m : Manifest} {orgs : Store OrganizationSpec}
    {deps : Store DeploymentSpec} (accepted : Settings.ofLookup lookup = .ok settings)
    (declared : Declared lookup files m) (manned : settings.workers ≠ 0)
    (organizations : Store.Sown (identifier base) m.organizations orgs)
    (deployments : Store.Sown (fun i => identifier base (m.organizations.length + i))
      m.deployments deps) :
    Result lookup files clock base (.ok (ready settings clock base orgs deps
      (m.organizations.length + m.deployments.length)))

structure Admissible (lookup : Settings.Lookup) (files : Files) (settings : Settings)
    (m : Manifest) : Prop where
  accepted : Settings.ofLookup lookup = .ok settings
  declared : Declared lookup files m
  organizations : (m.organizations.map (·.key)).Nodup
  deployments : (m.deployments.map (·.key)).Nodup
  manned : settings.workers ≠ 0

theorem Admissible.ok {m : Manifest} (h : Admissible lookup files settings m)
    {r : Except StartupError Cluster} (result : Result lookup files clock base r) :
    ∃ c, r = .ok c := by
  have unique {settings' : Settings} (accepted : Settings.ofLookup lookup = .ok settings') :
      settings' = settings := Except.ok.inj (accepted.symm.trans h.accepted)
  have unique' {m' : Manifest} (declared : Declared lookup files m') : m' = m :=
    Except.ok.inj (declared.manifest_eq.symm.trans h.declared.manifest_eq)
  cases result with
  | ready => exact ⟨_, rfl⟩
  | settings refused => cases refused.symm.trans h.accepted
  | unreadable accepted named unreadable =>
    have failed := (manifest_named named).trans (load_unreadable unreadable)
    cases failed.symm.trans h.declared.manifest_eq
  | malformed accepted named holds undecoded =>
    have failed := (manifest_named named).trans (load_text holds)
    rw [undecoded] at failed
    cases failed.symm.trans h.declared.manifest_eq
  | organization accepted declared repeated =>
    cases unique' declared
    exact absurd h.organizations repeated.not_nodup
  | deployment accepted declared distinct repeated =>
    cases unique' declared
    exact absurd h.deployments repeated.not_nodup
  | unmanned accepted declared organizations deployments idle =>
    cases unique accepted
    exact absurd idle h.manned

def doubled : String :=
  "\x7b\"organizations\": [\x7b\"metadata\": \x7b\"name\": \"a\"\x7d\x7d, " ++
  "\x7b\"metadata\": \x7b\"name\": \"a\", \"namespace\": \"default\"\x7d\x7d]\x7d"

def told (r : Except StartupError Cluster) (e : StartupError) : Bool :=
  match r with
  | .ok _ => false
  | .error e' => decide (e' = e)

end Tenancy.Startup
