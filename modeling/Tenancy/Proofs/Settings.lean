import Mathlib.Data.List.Forall2
import Tenancy.Proofs.Text.Numeral
import Tenancy.Proofs.Text.Parts
import Tenancy.Proofs.Text.Trim

/-! Which variables make settings: those that are absent or hold a number below their limit, with
blanks around it at most. The settings are what the variables give; if one gives nothing the first
of these is named, and the bus has no part in that. -/

namespace Tenancy

/-! ### Variables -/

/-- A variable that holds a number below the limit; without it there is a default. -/
structure Variable where
  name : String
  limit : Nat
  default : Nat

namespace Variable

def reconcileTimeout : Variable := ⟨"ORG_CONTROLLER_RECONCILE_TIMEOUT_SECS", UInt64.size, 60⟩

def shortWait : Variable := ⟨"ORG_CONTROLLER_SHORT_WAIT_SECS", UInt64.size, 1⟩

def steadyWait : Variable := ⟨"ORG_CONTROLLER_STEADY_WAIT_SECS", UInt64.size, 60⟩

def threshold : Variable := ⟨"ORG_CONTROLLER_SPEEDY_THRESHOLD", UInt32.size, 5⟩

def errorBackoff : Variable := ⟨"ORG_CONTROLLER_ERROR_BACKOFF_SECS", UInt64.size, 5⟩

def workers : Variable := ⟨"ORG_CONTROLLER_WORKERS", UInt64.size, 4⟩

def all : List Variable :=
  [reconcileTimeout, shortWait, steadyWait, threshold, errorBackoff, workers]

theorem default_lt : ∀ v ∈ all, v.default < v.limit := by decide

variable {lookup lookup' : Settings.Lookup} {v : Variable} {n : Nat} {e : ReconcileError}

inductive Gives (lookup : Settings.Lookup) (v : Variable) : Nat → Prop
  | absent (unset : lookup v.name = none) : Gives lookup v v.default
  | present {raw : String} {cs : List Char} {n : Nat} (set : lookup v.name = some raw)
    (trimmed : Text.Trimmed raw.toList cs) (numeral : Numeral cs n) (below : n < v.limit) :
    Gives lookup v n

theorem Gives.lt (given : v.Gives lookup n) (known : v ∈ all) : n < v.limit := by
  cases given with
  | absent => exact default_lt v known
  | present _ _ _ below => exact below

def read (lookup : Settings.Lookup) (v : Variable) : Except ReconcileError Nat :=
  Settings.number lookup v.name v.limit v.default

theorem read_congr (same : lookup' v.name = lookup v.name) : v.read lookup' = v.read lookup := by
  unfold read Settings.number
  rw [same]

theorem read_eq_ok (known : v ∈ all) : v.read lookup = .ok n ↔ v.Gives lookup n := by
  have positive : 0 < v.limit := Nat.zero_lt_of_lt (default_lt v known)
  unfold read Settings.number
  cases set : lookup v.name with
  | none =>
    refine ⟨fun h => ?_, fun h => ?_⟩
    · cases h
      exact .absent set
    · cases h with
      | absent => rfl
      | present set' => cases set.symm.trans set'
  | some raw =>
    have number : readNumber v.limit (Text.trim raw.toList) = .ok n ↔
      Numeral (Text.trim raw.toList) n ∧ n < v.limit := readNumber_eq_ok positive
    dsimp only
    cases got : readNumber v.limit (Text.trim raw.toList) with
    | ok m =>
      rw [got, Except.ok.injEq] at number
      dsimp only
      rw [Except.ok.injEq, number]
      refine ⟨fun ⟨numeral, below⟩ => ?_, fun h => ?_⟩
      · exact .present set (Text.trimmed_trim _) numeral below
      · cases h with
        | absent unset => cases set.symm.trans unset
        | present set' trimmed numeral below =>
          cases set.symm.trans set'
          rw [trimmed.trim_eq]
          exact ⟨numeral, below⟩
    | error why =>
      rw [got] at number
      refine ⟨nofun, fun h => ?_⟩
      cases h with
      | absent unset => cases set.symm.trans unset
      | present set' trimmed numeral below =>
        cases set.symm.trans set'
        rw [trimmed.trim_eq] at number
        cases number.2 ⟨numeral, below⟩

theorem of_read_eq_error (failed : v.read lookup = .error e) :
    ∃ raw, lookup v.name = some raw ∧ ∃ why : NumberError,
      e = .configuration (v.name ++ "=" ++ Text.quoted raw ++ ": " ++ why.message) := by
  unfold read Settings.number at failed
  cases set : lookup v.name with
  | none => simp [set] at failed
  | some raw =>
    rw [set] at failed
    dsimp only at failed
    split at failed
    · cases failed
    · rename_i why _
      cases failed
      exact ⟨raw, rfl, why, rfl⟩

end Variable

/-! ### Reading one after the other -/

section

variable {α β ε : Type} {f : α → Except ε β} {xs : List α} {ys : List β} {e : ε}

theorem mapM_eq_ok : xs.mapM f = .ok ys ↔ List.Forall₂ (fun x y => f x = .ok y) xs ys := by
  induction xs generalizing ys with
  | nil =>
    rw [List.mapM_nil, List.forall₂_nil_left_iff]
    exact ⟨fun h => by cases h; rfl, fun h => h ▸ rfl⟩
  | cons x xs ih =>
    rw [List.mapM_cons, List.forall₂_cons_left_iff]
    cases first : f x with
    | error e => exact ⟨nofun, fun ⟨y, _, h, _⟩ => nomatch h⟩
    | ok y =>
      cases rest : xs.mapM f with
      | error e =>
        refine ⟨nofun, fun ⟨_, zs, _, h, _⟩ => ?_⟩
        have := ih.2 h
        cases rest.symm.trans this
      | ok zs =>
        constructor
        · intro h
          cases h
          exact ⟨y, zs, rfl, ih.1 rest, rfl⟩
        · rintro ⟨y', zs', h, h', rfl⟩
          cases h
          cases rest.symm.trans (ih.2 h')
          rfl

theorem mapM_congr {g : α → Except ε β} (same : ∀ x ∈ xs, f x = g x) : xs.mapM f = xs.mapM g := by
  induction xs with
  | nil => rfl
  | cons x xs ih =>
    obtain ⟨first, rest⟩ := List.forall_mem_cons.1 same
    rw [List.mapM_cons, List.mapM_cons, first, ih rest]

theorem mapM_eq_error : xs.mapM f = .error e ↔ ∃ before x after, xs = before ++ x :: after ∧
    (∀ w ∈ before, ∃ y, f w = .ok y) ∧ f x = .error e := by
  induction xs with
  | nil =>
    refine ⟨nofun, fun ⟨before, x, after, h, _⟩ => ?_⟩
    simp at h
  | cons x xs ih =>
    rw [List.mapM_cons]
    cases first : f x with
    | error e' =>
      constructor
      · intro h
        cases h
        exact ⟨[], x, xs, rfl, List.forall_mem_nil _, first⟩
      · rintro ⟨before, z, after, h, sound, failed⟩
        cases before with
        | nil =>
          cases h
          cases first.symm.trans failed
          rfl
        | cons w before =>
          cases h
          obtain ⟨y, ok⟩ := sound x List.mem_cons_self
          cases first.symm.trans ok
    | ok y =>
      have rest : (xs.mapM f >>= fun ys => pure (y :: ys)) = .error e ↔ xs.mapM f = .error e := by
        cases xs.mapM f with
        | ok ys => exact ⟨nofun, nofun⟩
        | error e' => exact ⟨fun h => by cases h; rfl, fun h => by cases h; rfl⟩
      refine (rest.trans ih).trans ⟨?_, ?_⟩
      · rintro ⟨before, z, after, rfl, sound, failed⟩
        exact ⟨x :: before, z, after, rfl, List.forall_mem_cons.2 ⟨⟨y, first⟩, sound⟩, failed⟩
      · rintro ⟨before, z, after, h, sound, failed⟩
        cases before with
        | nil =>
          cases h
          cases first.symm.trans failed
        | cons w before =>
          cases h
          exact ⟨before, z, after, rfl, (List.forall_mem_cons.1 sound).2, failed⟩

end

namespace Settings

variable {lookup lookup' : Lookup} {s : Settings} {e : ReconcileError}

def ofNumbers (bus : Option BusSettings) : List Nat → Settings
  | [timeout, short, steady, threshold, backoff, workers] =>
    ⟨.ofSeconds timeout, .ofSeconds short, .ofSeconds steady, .ofNat threshold, .ofSeconds backoff,
      .ofNat workers, bus⟩
  | _ => default

theorem ofLookup_eq (lookup : Lookup) : ofLookup lookup =
    (Variable.all.mapM (Variable.read lookup)).map (ofNumbers (busOf lookup)) := by
  have reads : ofLookup lookup = (do
      let timeout ← (Variable.reconcileTimeout.read lookup).map .ofSeconds
      let short ← (Variable.shortWait.read lookup).map .ofSeconds
      let steady ← (Variable.steadyWait.read lookup).map .ofSeconds
      let threshold ← Variable.threshold.read lookup
      let backoff ← (Variable.errorBackoff.read lookup).map .ofSeconds
      let workers ← Variable.workers.read lookup
      return ⟨timeout, short, steady, .ofNat threshold, backoff, .ofNat workers, busOf lookup⟩) :=
    rfl
  rw [reads]
  simp only [Variable.all, List.mapM_cons, List.mapM_nil]
  -- each of them that fails ends both sides
  cases Variable.reconcileTimeout.read lookup with
  | error e => rfl
  | ok timeout =>
  cases Variable.shortWait.read lookup with
  | error e => rfl
  | ok short =>
  cases Variable.steadyWait.read lookup with
  | error e => rfl
  | ok steady =>
  cases Variable.threshold.read lookup with
  | error e => rfl
  | ok threshold =>
  cases Variable.errorBackoff.read lookup with
  | error e => rfl
  | ok backoff =>
  cases Variable.workers.read lookup with
  | error e => rfl
  | ok workers => rfl

/-- What the variables of the bus give: nothing without an address, and else the pieces of it
between the commas without the blanks around them, and the root. -/
inductive BusGiven (lookup : Lookup) : Option BusSettings → Prop
  | unused (unset : lookup "NATS_URL" = none) : BusGiven lookup none
  | used {url : String} {pieces : List (List Char)} {servers : List String}
    (set : lookup "NATS_URL" = some url) (parts : Text.Parts ',' url.toList pieces)
    (trimmed : List.Forall₂ (fun p server => Text.Trimmed p server.toList) pieces servers) :
    BusGiven lookup (some ⟨servers, "org-controller", .ofSeconds 10, .ofSeconds 5,
      (lookup "NATS_SUBJECT_PREFIX").getD "org"⟩)

theorem busGiven_busOf (lookup : Lookup) : BusGiven lookup (busOf lookup) := by
  unfold busOf
  cases set : lookup "NATS_URL" with
  | none => exact .unused set
  | some url =>
    refine .used set (parts_splitCommas url.toList) ?_
    rw [List.forall₂_map_right_iff, List.forall₂_same]
    intro piece _
    rw [String.toList_ofList]
    exact Text.trimmed_trim piece

structure Given (lookup : Lookup) (s : Settings) : Prop where
  reconcileTimeout : ∃ n, Variable.reconcileTimeout.Gives lookup n ∧
    s.reconcileTimeout = .ofSeconds n
  shortWait : ∃ n, Variable.shortWait.Gives lookup n ∧ s.shortWait = .ofSeconds n
  steadyWait : ∃ n, Variable.steadyWait.Gives lookup n ∧ s.steadyWait = .ofSeconds n
  threshold : Variable.threshold.Gives lookup s.threshold.toNat
  errorBackoff : ∃ n, Variable.errorBackoff.Gives lookup n ∧ s.errorBackoff = .ofSeconds n
  workers : Variable.workers.Gives lookup s.workers.toNat
  bus : BusGiven lookup s.bus

/-- The error names the first variable that gives nothing, with what it holds. -/
def Blamed (lookup : Lookup) (e : ReconcileError) : Prop :=
  ∃ before v after, Variable.all = before ++ v :: after ∧
    (∀ u ∈ before, ∃ n, u.Gives lookup n) ∧ (∀ n, ¬v.Gives lookup n) ∧
    ∃ raw, lookup v.name = some raw ∧ ∃ why : NumberError,
      e = .configuration (v.name ++ "=" ++ Text.quoted raw ++ ": " ++ why.message)

theorem given_of_ok (ok : ofLookup lookup = .ok s) : Given lookup s := by
  rw [ofLookup_eq] at ok
  cases numbers : Variable.all.mapM (Variable.read lookup) with
  | error e =>
    rw [numbers] at ok
    cases ok
  | ok ns =>
    rw [numbers] at ok
    cases ok
    have reads := mapM_eq_ok.1 numbers
    simp only [Variable.all, List.forall₂_cons_left_iff, List.forall₂_nil_left_iff] at reads
    obtain ⟨timeout, _, timeout_, ⟨short, _, short_, ⟨steady, _, steady_, ⟨threshold, _, threshold_,
      ⟨backoff, _, backoff_, ⟨workers, _, workers_, rfl, rfl⟩, rfl⟩, rfl⟩, rfl⟩, rfl⟩, rfl⟩ := reads
    have gives {v : Variable} {n : Nat} (read : v.read lookup = .ok n) (known : v ∈ Variable.all) :
        v.Gives lookup n := (Variable.read_eq_ok known).1 read
    have threshold' := gives threshold_ (by simp [Variable.all])
    have workers' := gives workers_ (by simp [Variable.all])
    have small : (UInt32.ofNat threshold).toNat = threshold :=
      UInt32.toNat_ofNat_of_lt' (threshold'.lt (by simp [Variable.all]))
    have small' : (UInt64.ofNat workers).toNat = workers :=
      UInt64.toNat_ofNat_of_lt' (workers'.lt (by simp [Variable.all]))
    exact {
      reconcileTimeout := ⟨timeout, gives timeout_ (by simp [Variable.all]), rfl⟩
      shortWait := ⟨short, gives short_ (by simp [Variable.all]), rfl⟩
      steadyWait := ⟨steady, gives steady_ (by simp [Variable.all]), rfl⟩
      threshold := small.symm ▸ threshold'
      errorBackoff := ⟨backoff, gives backoff_ (by simp [Variable.all]), rfl⟩
      workers := small'.symm ▸ workers'
      bus := busGiven_busOf lookup }

theorem blamed_of_error (failed : ofLookup lookup = .error e) : Blamed lookup e := by
  rw [ofLookup_eq] at failed
  cases numbers : Variable.all.mapM (Variable.read lookup) with
  | ok ns =>
    rw [numbers] at failed
    cases failed
  | error e' =>
    rw [numbers] at failed
    cases failed
    obtain ⟨before, v, after, all, sound, failed⟩ := mapM_eq_error.1 numbers
    have known : v ∈ Variable.all := by simp [all]
    refine ⟨before, v, after, all, fun u hu => ?_, fun n gives => ?_,
      Variable.of_read_eq_error failed⟩
    · obtain ⟨n, read⟩ := sound u hu
      exact ⟨n, (Variable.read_eq_ok (by simp [all, hu])).1 read⟩
    · cases failed.symm.trans ((Variable.read_eq_ok known).2 gives)

theorem Given.gives (given : Given lookup s) : ∀ v ∈ Variable.all, ∃ n, v.Gives lookup n := by
  simp only [Variable.all, List.forall_mem_cons]
  exact ⟨given.reconcileTimeout.imp fun _ => And.left, given.shortWait.imp fun _ => And.left,
    given.steadyWait.imp fun _ => And.left, ⟨_, given.threshold⟩,
    given.errorBackoff.imp fun _ => And.left, ⟨_, given.workers⟩, List.forall_mem_nil _⟩

theorem accepts_iff :
    (∃ s, ofLookup lookup = .ok s) ↔ ∀ v ∈ Variable.all, ∃ n, v.Gives lookup n := by
  constructor
  · rintro ⟨s, ok⟩
    exact (given_of_ok ok).gives
  · intro gives
    cases read : ofLookup lookup with
    | ok s => exact ⟨s, rfl⟩
    | error e =>
      obtain ⟨before, v, after, all, -, nothing, -⟩ := blamed_of_error read
      obtain ⟨n, given⟩ := gives v (by simp [all])
      exact absurd given (nothing n)

theorem ofLookup_congr (same : ∀ v ∈ Variable.all, lookup' v.name = lookup v.name) :
    (∀ e, ofLookup lookup' = .error e ↔ ofLookup lookup = .error e) ∧
      (lookup "NATS_URL" = none → lookup' "NATS_URL" = none →
        ofLookup lookup' = ofLookup lookup) := by
  have reads : Variable.all.mapM (Variable.read lookup') =
      Variable.all.mapM (Variable.read lookup) :=
    mapM_congr fun v known => Variable.read_congr (same v known)
  rw [ofLookup_eq, ofLookup_eq, reads]
  refine ⟨fun e => ?_, fun unset unset' => ?_⟩
  · cases Variable.all.mapM (Variable.read lookup) with
    | error e' => exact Iff.rfl
    | ok ns => exact ⟨nofun, nofun⟩
  · have bus : busOf lookup' = busOf lookup := by rw [busOf, busOf, unset, unset']; rfl
    rw [bus]

/-- Settings are read exactly from variables that are absent or hold a number below their limit,
each of which gives its number or its default; otherwise the first that holds none is blamed. The
bus makes nothing fail, and its root counts only with an address. -/
theorem settings_read (lookup : Lookup) :
    ((∃ s, ofLookup lookup = .ok s) ↔ ∀ v ∈ Variable.all, ∃ n, v.Gives lookup n) ∧
      (∀ s, ofLookup lookup = .ok s → Given lookup s) ∧
      (∀ e, ofLookup lookup = .error e → Blamed lookup e) ∧
      ∀ lookup' : Lookup, (∀ v ∈ Variable.all, lookup' v.name = lookup v.name) →
        (∀ e, ofLookup lookup' = .error e ↔ ofLookup lookup = .error e) ∧
        (lookup "NATS_URL" = none → lookup' "NATS_URL" = none →
          ofLookup lookup' = ofLookup lookup) :=
  ⟨accepts_iff, fun _ => given_of_ok, fun _ => blamed_of_error, fun _ => ofLookup_congr⟩

def misread : Lookup := fun name => List.lookup name [("ORG_CONTROLLER_WORKERS", "four"),
  ("ORG_CONTROLLER_SPEEDY_THRESHOLD", "4294967296"),
  ("ORG_CONTROLLER_STEADY_WAIT_SECS", " +0120 ")]

theorem settings_read_blamed :
    Given (fun _ => none) default ∧ ofLookup misread = .error (.configuration
      "ORG_CONTROLLER_SPEEDY_THRESHOLD=\"4294967296\": number too large to fit in target type") ∧
    Blamed misread (.configuration
      "ORG_CONTROLLER_SPEEDY_THRESHOLD=\"4294967296\": number too large to fit in target type") ∧
    ∀ prefix_ : String,
      ofLookup (fun name => if name = "NATS_SUBJECT_PREFIX" then some prefix_ else misread name) =
        ofLookup misread := by
  have failed : ofLookup misread = .error (.configuration
      "ORG_CONTROLLER_SPEEDY_THRESHOLD=\"4294967296\": number too large to fit in target type") :=
    by decide +kernel
  have read := settings_read misread
  refine ⟨(settings_read fun _ => none).2.1 _ rfl, failed, read.2.2.1 _ failed, fun prefix_ => ?_⟩
  have others : ∀ v ∈ Variable.all, v.name ≠ "NATS_SUBJECT_PREFIX" := by decide
  exact (read.2.2.2 _ fun v known => if_neg (others v known)).2 rfl rfl

end Settings
end Tenancy
