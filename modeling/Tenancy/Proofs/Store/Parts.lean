import Mathlib.Data.List.Forall2
import Tenancy.Proofs.Store.Generation

/-! The two parts of an object, which are written apart. What is declared is what the last accepted
update has handed in, and the status is what the last accepted status write has; the identifier and
the mark are the store's own. Whatever else a writer hands in is of no account. -/

namespace Tenancy

variable {S : Type}

namespace Write

def declares? : Write S → Option (Resource S)
  | update o => some o
  | create _ _ | delete _ _ | updateStatus _ => none

def reports? : Write S → Option (Resource S)
  | updateStatus o => some o
  | create _ _ | delete _ _ | update _ => none

def dismisses? : Write S → Option Instant
  | delete now _ => some now
  | create _ _ | update _ | updateStatus _ => none

/-- What the last of some writes of one sort hands in, or what there was at first. -/
def latest (sort : Write S → Option (Resource S)) (x : Resource S) (ws : List (Write S)) :
    Resource S :=
  (ws.filterMap sort).getLast?.getD x

theorem latest_concat (sort : Write S → Option (Resource S)) (x : Resource S)
    (ws : List (Write S)) (w : Write S) :
    latest sort x (ws ++ [w]) = (sort w).getD (latest sort x ws) := by
  unfold latest
  rw [List.filterMap_append]
  cases h : sort w with
  | none => simp [h]
  | some o => simp [h]

end Write

structure Declaration (S : Type) where
  typeMeta : TypeMeta
  spec : S
  finalizers : List String
  annotations : Std.ExtTreeMap String String

namespace Resource

def declaration (o : Resource S) : Declaration S :=
  ⟨o.typeMeta, o.spec, o.metadata.finalizers, o.metadata.annotations⟩

/-- The object is put together from what was created and what some writes have handed in since. -/
structure Composed (o : Resource S) (uid : Uid) (x : Resource S) (ws : List (Write S)) : Prop where
  status : o.status = (Write.latest Write.reports? x ws).status
  declaration : o.declaration = (Write.latest Write.declares? x ws).declaration
  uid : o.metadata.uid = some uid
  mark : o.metadata.deletedAt = (ws.filterMap Write.dismisses?).head?

end Resource

/-- Both hand in the same key and version, and the same part of what they write. -/
inductive Write.Agrees : Write S → Write S → Prop
  | same (w : Write S) : Agrees w w
  | update {o p : Resource S} (key : o.key = p.key) (version : o.version = p.version)
    (declaration : o.declaration = p.declaration) : Agrees (.update o) (.update p)
  | updateStatus {o p : Resource S} (key : o.key = p.key) (version : o.version = p.version)
    (status : o.status = p.status) : Agrees (.updateStatus o) (.updateStatus p)

namespace Store

variable [ResourceKind S] {s : Store S} {w v : Write S} {k : Key} {o n : Resource S}

/-! ### Accepted writes -/

def accepted (s : Store S) (k : Key) : List (Write S) → List (Write S)
  | [] => []
  | w :: ws =>
    let later := (s.write w).store.accepted k ws
    if w.key = k ∧ (s.write w).answer.isOk then w :: later else later

theorem accepted_concat (s : Store S) (k : Key) (ws : List (Write S)) (w : Write S) :
    s.accepted k (ws ++ [w]) = s.accepted k ws ++
      if w.key = k ∧ ((s.writeAll ws).write w).answer.isOk then [w] else [] := by
  induction ws generalizing s with
  | nil => rfl
  | cons v ws ih =>
    have later := ih (s.write v).store
    by_cases h : v.key = k ∧ (s.write v).answer.isOk
    · simp only [List.cons_append, accepted, later, if_pos h]
      rfl
    · simp only [List.cons_append, accepted, later, if_neg h]
      rfl

inductive Grants (s : Store S) (o : Resource S) : Write S → Resource S → Prop
  | declared (u : Resource S) : Grants s o (.update u) (s.draw (revise o u))
  | reported (u : Resource S) : Grants s o (.updateStatus u) (s.draw (o.withStatus u.status))
  | marked {now key} (unmarked : o.metadata.deletedAt = none) :
    Grants s o (.delete now key) (s.draw (o.marked now))
  | pending {now key} (marked : o.metadata.deletedAt ≠ none) : Grants s o (.delete now key) o

theorem grants_of_isOk (keyed : s.Keyed) (ho : s.get? w.key = some o)
    (hn : (s.write w).store.get? w.key = some n) (ok : (s.write w).answer.isOk) :
    s.Grants o w n := by
  have put {x : Resource S} {k : Key} (key : x.key = k) (h : (s.put x).get? k = some n) :
      n = x := by
    rw [← key, get?_put_self] at h
    exact (Option.some.inj h).symm
  have gone {k : Key} (h : (s.remove k).get? k = some n) : False := by
    rw [get?_remove, if_pos rfl] at h
    cases h
  have effect := s.effect_write w
  generalize (s.write w).change = c at effect
  generalize (s.write w).store = t at effect hn
  cases effect with
  | taken =>
    rw [write, Written.isOk_mute, refused_create ho] at ok
    cases ok
  | missing absent | created absent => cases absent.symm.trans ho
  | stale held stale =>
    obtain ⟨c, hc, current⟩ := (isOk_write_iff held).1 ok
    exact absurd current (stale c hc)
  | pending stored _ marked =>
    cases stored.symm.trans ho
    cases hn.symm.trans ho
    exact .pending marked
  | @marked now key c stored _ unmarked =>
    cases stored.symm.trans ho
    rw [put (x := s.draw (o.marked now)) (keyed key o ho) hn]
    exact .marked unmarked
  | deleted | released => exact (gone hn).elim
  | @updated u c stored =>
    cases stored.symm.trans ho
    rw [put (x := s.draw (revise o u)) rfl hn]
    exact .declared u
  | @statusUpdated u c stored =>
    cases stored.symm.trans ho
    rw [put (x := s.draw (o.withStatus u.status)) (keyed u.key o ho) hn]
    exact .reported u

theorem eq_of_not_accepted (keyed : s.Keyed) (ho : s.get? k = some o)
    (hn : (s.write w).store.get? k = some n)
    (other : ¬(w.key = k ∧ (s.write w).answer.isOk)) : n = o := by
  have same : (s.write w).store.get? k = s.get? k := by
    by_cases key : w.key = k
    · have refused : (s.write w).answer.isOk = false :=
        Bool.eq_false_iff.2 fun ok => other ⟨key, ok⟩
      rw [store_of_refused refused]
    · exact get?_write_of_ne keyed key
  rw [same, ho] at hn
  exact (Option.some.inj hn).symm

/-! ### What is of no account -/

theorem held_congr {o p : Resource S} (key : o.key = p.key) (version : o.version = p.version) :
    s.held o = s.held p := by
  unfold held
  rw [key, version]

theorem revise_congr {c o p : Resource S} (key : o.key = p.key) (version : o.version = p.version)
    (declaration : o.declaration = p.declaration) : revise c o = revise c p := by
  have ns : o.metadata.ns = p.metadata.ns := congrArg Key.ns key
  have name : o.metadata.name = p.metadata.name := congrArg Key.name key
  have version : o.metadata.resourceVersion = p.metadata.resourceVersion := version
  have typeMeta : o.typeMeta = p.typeMeta := congrArg Declaration.typeMeta declaration
  have spec : o.spec = p.spec := congrArg Declaration.spec declaration
  have finalizers : o.metadata.finalizers = p.metadata.finalizers :=
    congrArg Declaration.finalizers declaration
  have annotations : o.metadata.annotations = p.metadata.annotations :=
    congrArg Declaration.annotations declaration
  simp only [revise, typeMeta, spec, ns, name, version, finalizers, annotations]

theorem write_congr (h : w.Agrees v) : s.write w = s.write v := by
  cases h with
  | same => rfl
  | update key version declaration =>
    have revised (c : Resource S) := revise_congr (c := c) key version declaration
    simp only [write, update, held_congr key version, revised, key]
  | updateStatus key version status =>
    simp only [write, updateStatus, held_congr key version, status]

end Store

namespace Resource.Composed

theorem born (s : Store S) (uid : Uid) (x : Resource S) :
    (s.draw (x.born uid)).Composed uid x [] :=
  ⟨rfl, rfl, rfl, rfl⟩

variable [ResourceKind S] {s : Store S} {uid : Uid} {x o n : Resource S} {ws : List (Write S)}
  {w : Write S}

theorem grants (h : o.Composed uid x ws) (g : s.Grants o w n) : n.Composed uid x (ws ++ [w]) := by
  have reported := Write.latest_concat Write.reports? x ws w
  have declared := Write.latest_concat Write.declares? x ws w
  have dismissed : (ws ++ [w]).filterMap Write.dismisses? =
      ws.filterMap Write.dismisses? ++ w.dismisses?.toList := by
    cases hw : w.dismisses? <;> simp [hw]
  constructor
  case status =>
    rw [reported]
    cases g with
    | reported => rfl
    | declared | marked | pending => exact h.status
  case declaration =>
    rw [declared]
    cases g with
    | declared => rfl
    | reported | marked | pending => exact h.declaration
  case uid =>
    cases g with
    | declared | reported | marked | pending => exact h.uid
  case mark =>
    rw [dismissed]
    cases g with
    | declared | reported =>
      rw [Write.dismisses?, Option.toList_none, List.append_nil]
      exact h.mark
    | marked unmarked =>
      have first : ws.filterMap Write.dismisses? = [] :=
        List.head?_eq_none_iff.1 (h.mark.symm.trans unmarked)
      rw [first]
      rfl
    | pending marked =>
      -- an object that is marked already keeps its mark
      obtain ⟨at_, mark⟩ := Option.ne_none_iff_exists'.1 marked
      rw [List.head?_append, ← h.mark, mark]
      rfl

end Resource.Composed

namespace History

open Store

variable [ResourceKind S]

theorem after_congr {ws vs : List (Write S)} (h : List.Forall₂ Write.Agrees ws vs) :
    after ws = after vs := by
  have fold (start : History S) : ws.foldl write start = vs.foldl write start := by
    induction h generalizing start with
    | nil => rfl
    | cons agree _ ih =>
      rw [List.foldl_cons, List.foldl_cons, ih, write, write, write_congr agree]
  exact fold empty

/-- Every stored object is put together from what it was created with and what those writes have
handed in that were accepted since: the status by the last write of the status, the rest by the last
update. Runs that differ only in what writers hand in of the other part, or of what is the store's
own, come to the same. -/
theorem parts_apart (ws : List (Write S)) :
    (∀ k o, (after ws).store.get? k = some o →
      ∃ before uid x rest, ws = before ++ .create uid x :: rest ∧ Lives k before uid x rest ∧
        o.Composed uid x ((after (before ++ [.create uid x])).store.accepted k rest)) ∧
    ∀ vs, List.Forall₂ Write.Agrees ws vs → after vs = after ws := by
  refine ⟨fun k o stored => ?_, fun vs agree => (after_congr agree).symm⟩
  obtain ⟨before, uid, x, rest, rfl, lives⟩ := lives_of_stored ws stored
  refine ⟨before, uid, x, rest, rfl, lives, ?_⟩
  refine lives.induction (P := fun rest o =>
    o.Composed uid x ((after (before ++ [.create uid x])).store.accepted k rest))
    (Resource.Composed.born _ uid x) ?_ stored
  intro rest w o n ho hn composed
  have keyed := keyed_after (before ++ .create uid x :: rest)
  have run : (after (before ++ [.create uid x])).store.writeAll rest =
      (after (before ++ .create uid x :: rest)).store := by
    rw [writeAll_after, List.append_assoc]
    rfl
  rw [accepted_concat, run]
  split
  · rename_i h
    obtain ⟨rfl, ok⟩ := h
    exact composed.grants (grants_of_isOk keyed ho hn ok)
  · rename_i other
    rw [List.append_nil, eq_of_not_accepted keyed ho hn other]
    exact composed

def copy (version : UInt64) (description : String) (observed : Observed) (uid : Option Uid) :
    Organization where
  typeMeta := ⟨apiVersion, "Organization"⟩
  metadata := { Metadata.new "a" "b" with
    resourceVersion := version, uid := uid, finalizers := ["f"] }
  spec := ⟨some description, [], none⟩
  status := ⟨[], some observed⟩

def rivals (description : String) (observed : Observed) (uid : Option Uid) :
    List (Write OrganizationSpec) :=
  [.create ⟨1⟩ (copy 0 "first" .blank none), .updateStatus (copy 1 description (.down "no") uid),
    .update (copy 2 "second" observed uid), .update (copy 2 "late" observed uid),
    .delete .epoch ⟨"a", "b"⟩]

theorem parts_apart_rivals :
    let ws := rivals "mine" (.down "mine") (some ⟨9⟩)
    (∃ o, (after ws).store.get? ⟨"a", "b"⟩ = some o ∧ o.spec.description = some "second" ∧
      o.reason = "no" ∧ o.metadata.uid = some ⟨1⟩ ∧ o.metadata.deletedAt = some .epoch ∧
      ∃ before uid x rest, ws = before ++ .create uid x :: rest ∧
        Lives ⟨"a", "b"⟩ before uid x rest ∧
        o.Composed uid x ((after (before ++ [.create uid x])).store.accepted ⟨"a", "b"⟩ rest)) ∧
    after (rivals "" .blank none) = after ws := by
  intro ws
  obtain ⟨composed, apart⟩ := parts_apart ws
  have agree : List.Forall₂ Write.Agrees ws (rivals "" .blank none) :=
    .cons (.same _) <| .cons (.updateStatus rfl rfl rfl) <| .cons (.update rfl rfl rfl) <|
      .cons (.update rfl rfl rfl) <| .cons (.same _) .nil
  exact ⟨⟨_, rfl, rfl, rfl, rfl, rfl, composed _ _ rfl⟩, apart _ agree⟩

end History
end Tenancy
