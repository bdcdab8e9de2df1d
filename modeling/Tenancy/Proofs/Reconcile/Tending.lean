import Tenancy.Proofs.Deployment.Verdict
import Tenancy.Proofs.Reconcile.Footprint

/-! What a pass comes to while nobody else writes, if its logic does nothing but judge the object in
hand. The pass sees to the finalizer and writes the judgement into the status, so what it leaves is
a function of what was there, but for the version. -/

namespace Tenancy

variable {S α β : Type}

/-- What a pass is told that the stores do not know: the time and how long to wait. It asks for
each at most once. -/
structure Moment where
  now : Instant
  wait : Span

structure Judgement where
  observed : Observed
  failure : Option ReconcileError

namespace Judgement

def result (j : Judgement) : Except ReconcileError Unit :=
  match j.failure with
  | none => .ok ()
  | some e => .error e

def conditions (j : Judgement) (now : Instant) : List Condition :=
  match j.failure with
  | none => [.success now, .ready now]
  | some e => [.failure e.message now, .notReady now]

end Judgement

def Outcome.failure? : Outcome → Option ReconcileError
  | .ok _ => none
  | .error e => some e

namespace Resource

def unversioned (o : Resource S) : Resource S :=
  { o with metadata := { o.metadata with resourceVersion := 0 } }

theorem withFinalizer_unversioned (o : Resource S) (f : String) :
    o.unversioned.withFinalizer f = (o.withFinalizer f).unversioned := by
  cases has : o.metadata.hasFinalizer f with
  | true =>
    have has' : o.unversioned.metadata.hasFinalizer f = true := has
    rw [withFinalizer_of_has has, withFinalizer_of_has has']
  | false =>
    have lacks' : o.unversioned.metadata.hasFinalizer f = false := has
    rw [withFinalizer_of_lacks has, withFinalizer_of_lacks lacks']
    rfl

variable [ResourceKind S]

def tended (o : Resource S) (j : Judgement) (now : Instant) : Resource S :=
  (o.withFinalizer (ResourceKind.finalizer S)).withStatus
    ⟨Condition.setAll o.status.conditions (j.conditions now), some j.observed⟩

def dismissed (o : Resource S) : Option (Resource S) :=
  if o.hasOwnFinalizer then
    let o := o.withoutFinalizer (ResourceKind.finalizer S)
    if o.metadata.finalizers.isEmpty then none else some o
  else some o

def left (o : Resource S) (j : Judgement) (now : Instant) : Option (Resource S) :=
  if !o.fits then some o else if o.wasDeleted then o.dismissed else some (o.tended j now)

def failure (o : Resource S) (j : Judgement) : Option ReconcileError :=
  if !o.fits then some (.unexpectedResource (ResourceKind.title S) o.typeMeta.kind)
  else if o.wasDeleted then none else j.failure

variable (o : Resource S) (j : Judgement) (now : Instant)

theorem tended_unversioned : o.unversioned.tended j now = (o.tended j now).unversioned := by
  unfold tended
  rw [withFinalizer_unversioned]
  rfl

theorem dismissed_unversioned : o.unversioned.dismissed = o.dismissed.map (·.unversioned) := by
  show (if o.hasOwnFinalizer then
      if (o.withoutFinalizer _).metadata.finalizers.isEmpty then _ else _ else _) =
    Option.map _ (if o.hasOwnFinalizer then
      if (o.withoutFinalizer _).metadata.finalizers.isEmpty then _ else _ else _)
  (repeat' split) <;> rfl

theorem failure_unversioned : o.unversioned.failure j = o.failure j := rfl

theorem left_unversioned :
    o.unversioned.left j now = (o.left j now).map (·.unversioned) := by
  unfold left
  rw [tended_unversioned, dismissed_unversioned]
  show (if !o.fits then _ else if o.wasDeleted then _ else _) = _
  (repeat' split) <;> rfl

end Resource

namespace Pass

open Program

variable [ResourceKind S]

def reply (orgs : List Organization) (m : Moment) (s : Store S) :
    (q : Request S) → q.Answer × Store S
  | .get key => (s.get key, s)
  | .update o => ((s.update o).answer, (s.update o).store)
  | .updateStatus o => ((s.updateStatus o).answer, (s.updateStatus o).store)
  | .clock => (m.now, s)
  | .logic .organizations => (.ok orgs, s)
  | .logic (.nextDelay _) => (m.wait, s)
  | .logic (.forget _) | .logic (.sleep _) | .logic (.entered _) => ((), s)

def perform (orgs : List Organization) (m : Moment) : Pass S α → Store S → α × Store S
  | .done a, s => (a, s)
  | .ask q next, s => perform orgs m (next (reply orgs m s q).1) (reply orgs m s q).2

variable {orgs : List Organization} {m : Moment} {s : Store S} {key : Key} {o : Resource S}

theorem perform_bind (p : Pass S α) (f : α → Pass S β) (s : Store S) :
    perform orgs m (p.bind f) s =
      perform orgs m (f (perform orgs m p s).1) (perform orgs m p s).2 := by
  induction p generalizing s with
  | done a => rfl
  | ask q next ih => exact ih _ _

end Pass

structure Logic.Judges [ResourceKind S] (logic : Logic S)
    (judge : List Organization → Resource S → Judgement) : Prop where
  prepare : ∀ o, logic.prepare o = .done (o.withObserved, .ok ())
  apply : ∀ orgs m o (s : Store S), Pass.perform orgs m (Pass.inquire (logic.apply o)) s =
    ((o.setObserved (judge orgs o).observed, (judge orgs o).result), s)
  cleanUp : ∀ o, logic.cleanUp o = .done (.ok true)
  release : ∀ orgs m o (s : Store S),
    Pass.perform orgs m (Pass.inquire (logic.release o)) s = ((), s)
  delay : ∀ orgs m o (s : Store S),
    Pass.perform orgs m (Pass.inquire (logic.delay o)) s = (m.wait, s)
  fresh : ∀ orgs o e, (judge orgs o).failure = some e → e.isConflict = false
  congr : ∀ orgs o d, d.key = o.key → d.spec = o.spec → judge orgs d = judge orgs o

/-! ### The logic of both kinds -/

namespace Organization

def judge (_ : List Organization) (o : Organization) : Judgement :=
  ⟨.up o.registers o.strategy, none⟩

theorem judges : logic.Judges judge where
  prepare _ := rfl
  apply _ _ _ _ := rfl
  cleanUp _ := rfl
  release _ _ _ _ := rfl
  delay _ _ _ _ := rfl
  fresh _ _ _ h := by cases h
  congr _ o d _ spec := by simp only [judge, Resource.registers, Resource.strategy, spec]

end Organization

namespace Deployment

def judge (orgs : List Organization) (d : Deployment) : Judgement where
  observed := d.verdict orgs
  failure :=
    if (d.parent? orgs).isSome then none else some (.organizationNotFound d.organizationName)

theorem judges : logic.Judges judge where
  prepare _ := rfl
  apply orgs m d s := by
    unfold judge verdict
    simp only [logic, Logic.paced, apply, Program.question, bind, Program.bind, Pass.inquire,
      Program.embed, Pass.perform, Pass.reply]
    cases parent? d orgs <;> rfl
  cleanUp _ := rfl
  release _ _ _ _ := rfl
  delay _ _ _ _ := rfl
  fresh orgs d e h := by
    unfold judge at h
    dsimp only at h
    split at h
    · cases h
    · cases h
      rfl
  congr orgs d e key spec := by
    have name : e.metadata.name = d.metadata.name := congrArg Key.name key
    have parent : parent? e orgs = parent? d orgs := by
      simp only [parent?, organizationName, name]
    unfold judge verdict effective Resource.registers Resource.strategy organizationName
    rw [parent, spec, name]

end Deployment

/-! ### Writes of a current copy -/

namespace Store

structure Swaps (s t : Store S) (key : Key) (n : Option (Resource S)) : Prop where
  keyed : t.Keyed
  own : t.get? key = n
  others : ∀ k, k ≠ key → t.get? k = s.get? k

namespace Swaps

variable {s t u : Store S} {key : Key} {n n' : Option (Resource S)}

theorem rfl (keyed : s.Keyed) : s.Swaps s key (s.get? key) :=
  ⟨keyed, Eq.refl _, fun _ _ => Eq.refl _⟩

theorem trans (h : s.Swaps t key n) (h' : t.Swaps u key n') : s.Swaps u key n' :=
  ⟨h'.keyed, h'.own, fun k hk => (h'.others k hk).trans (h.others k hk)⟩

theorem draw (keyed : s.Keyed) {o : Resource S} (hk : o.key = key) :
    s.Swaps (s.put (s.draw o)) key (some (s.draw o)) := by
  subst hk
  exact ⟨(Turn.put (s.draw o) (Eq.refl _)).keyed keyed, get?_put_self s _,
    fun _ hk => get?_put_of_ne hk.symm⟩

theorem remove (keyed : s.Keyed) {c : Resource S} (stored : s.get? key = some c) :
    s.Swaps (s.remove key) key none := by
  refine ⟨(Turn.remove stored).keyed keyed, ?_, fun k hk => ?_⟩
  · rw [get?_remove, if_pos (Eq.refl _)]
  · rw [get?_remove, if_neg hk.symm]

end Swaps

variable [ResourceKind S] {s : Store S} {o x : Resource S} {fs : List String}

theorem update_of_stored [ReflBEq S] (stored : s.get? o.key = some o) (fs : List String) :
    s.update (o.withFinalizers fs) =
      if o.wasDeleted && fs.isEmpty then
        ⟨.ok (o.withFinalizers fs), s.remove o.key, some (.deleted (o.withFinalizers fs))⟩
      else
        ⟨.ok (s.draw (o.withFinalizers fs)), s.put (s.draw (o.withFinalizers fs)),
          some (.updated o (s.draw (o.withFinalizers fs)))⟩ := by
  have held : s.held (o.withFinalizers fs) = .ok o := held_eq_ok.2 ⟨stored, Eq.refl _⟩
  have same : revise o (o.withFinalizers fs) = o.withFinalizers fs := by
    simp only [revise, Resource.withFinalizers, BEq.refl, if_true]
  unfold update
  rw [held]
  dsimp only
  rw [same]
  rfl

theorem updateStatus_of_stored (stored : s.get? o.key = some o) (copy : x.Copies o) :
    s.updateStatus x = ⟨.ok (s.draw (o.withStatus x.status)),
      s.put (s.draw (o.withStatus x.status)),
      some (.updated o (s.draw (o.withStatus x.status)))⟩ := by
  unfold updateStatus
  rw [held_eq_ok.2 ⟨copy.1 ▸ stored, copy.2⟩]
  rfl

end Store

namespace Pass

variable [ResourceKind S] {logic : Logic S} {judge : List Organization → Resource S → Judgement}
  {s : Store S} {o : Resource S} (orgs : List Organization) (m : Moment)

theorem perform_step {orgs : List Organization} {m : Moment} {p : Pass S α} {f : α → Pass S β}
    {a : α} {t : Store S}
    (h : perform orgs m p s = (a, t)) : perform orgs m (p.bind f) s = perform orgs m (f a) t := by
  rw [perform_bind, h]

theorem perform_amend {x : Resource S} {r : Except StoreError (Resource S)}
    {f : Except StoreError (Resource S) → Amendment S α} (answer : (s.update x).answer = r) :
    perform orgs m (amend (Program.bind (.question x) f)) s =
      perform orgs m (amend (f r)) (s.update x).store := by
  rw [← answer]
  rfl

theorem perform_add_of_lacks {x : Resource S} (lacks : o.hasOwnFinalizer = false)
    (ok : (s.update (o.withFinalizer (ResourceKind.finalizer S))).answer = .ok x) :
    perform orgs m (amend (Finalizer.addInStore o)) s =
      ((x, .ok ()), (s.update (o.withFinalizer (ResourceKind.finalizer S))).store) := by
  rw [Finalizer.addInStore_eq]
  rw [lacks]
  exact perform_amend orgs m ok

theorem perform_remove_of_has {x : Resource S} (has : o.hasOwnFinalizer = true)
    (ok : (s.update (o.withoutFinalizer (ResourceKind.finalizer S))).answer = .ok x) :
    perform orgs m (amend (Finalizer.removeInStore o)) s =
      ((x, .ok ()), (s.update (o.withoutFinalizer (ResourceKind.finalizer S))).store) := by
  rw [Finalizer.removeInStore_eq]
  rw [has]
  exact perform_amend orgs m ok

theorem perform_add [ReflBEq S] (keyed : s.Keyed) (stored : s.get? o.key = some o)
    (unmarked : o.wasDeleted = false) :
    ∃ x t, perform orgs m (amend (Finalizer.addInStore o)) s = ((x, .ok ()), t) ∧
      s.Swaps t o.key (some x) ∧
      x.unversioned = (o.withFinalizer (ResourceKind.finalizer S)).unversioned := by
  cases own : o.hasOwnFinalizer with
  | true =>
    refine ⟨o, s, ?_, stored ▸ .rfl keyed, ?_⟩
    · rw [Finalizer.addInStore_eq]
      rw [own]
      rfl
    · rw [Resource.withFinalizer_of_has own]
  | false =>
    have update := s.update_of_stored stored
      (o.metadata.finalizers ++ [ResourceKind.finalizer S])
    rw [unmarked, Bool.false_and, if_neg Bool.false_ne_true,
      ← Resource.withFinalizer_of_lacks own] at update
    refine ⟨s.draw (o.withFinalizer (ResourceKind.finalizer S)), _,
      perform_add_of_lacks orgs m own (by rw [update]), ?_, rfl⟩
    rw [update]
    exact .draw keyed (o.key_withFinalizer _)

theorem perform_remove [ReflBEq S] (keyed : s.Keyed) (stored : s.get? o.key = some o)
    (marked : o.wasDeleted = true) :
    ∃ x t n, perform orgs m (amend (Finalizer.removeInStore o)) s = ((x, .ok ()), t) ∧
      s.Swaps t o.key n ∧ n.map (·.unversioned) = o.dismissed.map (·.unversioned) := by
  unfold Resource.dismissed
  cases own : o.hasOwnFinalizer with
  | false =>
    refine ⟨o, s, some o, ?_, stored ▸ .rfl keyed, rfl⟩
    rw [Finalizer.removeInStore_eq]
    rw [own]
    rfl
  | true =>
    have update : s.update (o.withoutFinalizer (ResourceKind.finalizer S)) = _ :=
      s.update_of_stored stored (o.metadata.finalizers.filter (· != ResourceKind.finalizer S))
    rw [marked, Bool.true_and] at update
    cases bare : (o.withoutFinalizer (ResourceKind.finalizer S)).metadata.finalizers.isEmpty with
    | true =>
      have bare' : (o.metadata.finalizers.filter (· != ResourceKind.finalizer S)).isEmpty := bare
      rw [if_pos bare'] at update
      refine ⟨o.withoutFinalizer (ResourceKind.finalizer S), _, none,
        perform_remove_of_has orgs m own (by rw [update]; rfl), ?_, ?_⟩
      · rw [update]
        exact .remove keyed stored
      · simp only [bare, if_true]
    | false =>
      have bare' : (o.metadata.finalizers.filter (· != ResourceKind.finalizer S)).isEmpty = false :=
        bare
      rw [if_neg (bare' ▸ Bool.false_ne_true)] at update
      refine ⟨s.draw (o.withoutFinalizer (ResourceKind.finalizer S)), _,
        some (s.draw (o.withoutFinalizer (ResourceKind.finalizer S))),
        perform_remove_of_has orgs m own (by rw [update]; rfl), ?_, ?_⟩
      · rw [update]
        exact .draw keyed rfl
      · simp only [bare, Bool.false_eq_true, if_true, if_false]
        rfl

theorem perform_writeStatus {x : Resource S} (keyed : s.Keyed) (stored : s.get? o.key = some o)
    (copy : x.Copies o) :
    ∃ t, perform orgs m (writeStatus x) s = (.ok (), t) ∧
      s.Swaps t o.key (some (s.draw (o.withStatus x.status))) := by
  have answered : perform orgs m (updateStatus x) s = (.ok (s.draw (o.withStatus x.status)),
      s.put (s.draw (o.withStatus x.status))) := by
    show ((s.updateStatus x).answer, (s.updateStatus x).store) = _
    rw [s.updateStatus_of_stored stored copy]
  exact ⟨_, perform_step answered, .draw keyed rfl⟩

/-! ### Whole passes -/

theorem perform_conclude {x : Resource S} (judges : logic.Judges judge) (keyed : s.Keyed)
    (stored : s.get? o.key = some o) (copy : x.Copies o) :
    ∃ t, perform orgs m (conclude logic .applied true x) s = (.ok (some m.wait), t) ∧
      s.Swaps t o.key (some (s.draw (o.withStatus
        ⟨Condition.setAll x.status.conditions [.success m.now, .ready m.now],
          x.status.observed⟩))) := by
  let y := x.setConditions [.success m.now, .ready m.now]
  obtain ⟨t, written, swaps⟩ := perform_writeStatus orgs m keyed stored
    (show y.Copies o from copy)
  refine ⟨t, ?_, swaps⟩
  refine (perform_step (a := m.now) rfl).trans ?_
  refine (perform_step written).trans ?_
  exact perform_step (judges.delay orgs m y t)

theorem perform_fail {x : Resource S} {e : ReconcileError} (keyed : s.Keyed)
    (stored : s.get? o.key = some o) (copy : x.Copies o) (fresh : e.isConflict = false) :
    ∃ t, perform orgs m (fail .initialized x e) s = (.error e, t) ∧
      s.Swaps t o.key (some (s.draw (o.withStatus
        ⟨Condition.setAll x.status.conditions [.failure e.message m.now, .notReady m.now],
          x.status.observed⟩))) := by
  let y := x.setConditions [.failure e.message m.now, .notReady m.now]
  obtain ⟨t, written, swaps⟩ := perform_writeStatus orgs m keyed stored
    (show y.Copies o from copy)
  refine ⟨t, ?_, swaps⟩
  show perform orgs m (if true && !e.isConflict then _ else _) s = _
  rw [fresh]
  refine (perform_step (a := m.now) rfl).trans ?_
  exact perform_step written

theorem perform_live [ReflBEq S] (judges : logic.Judges judge) (keyed : s.Keyed)
    (stored : s.get? o.key = some o) (unmarked : o.wasDeleted = false) :
    ∃ r t n, perform orgs m (live logic .inStore .live o) s = (r, t) ∧
      s.Swaps t o.key (some n) ∧
      n.unversioned = (o.tended (judge orgs o) m.now).unversioned ∧
      r.failure? = (judge orgs o).failure := by
  obtain ⟨x, s₁, added, guarded, alike⟩ :=
    perform_add orgs m keyed stored unmarked
  have key : x.key = o.key :=
    Eq.trans (congrArg Resource.key alike :) (o.key_withFinalizer _)
  have spec : x.spec = o.spec := (congrArg Resource.spec alike :)
  have conditions : x.status.conditions = o.status.conditions :=
    (congrArg (·.status.conditions) alike :)
  have stored₁ : s₁.get? x.key = some x := key ▸ guarded.own
  have judged : judge orgs x.withObserved = judge orgs o :=
    judges.congr orgs o _ (x.key_withObserved.trans key) (x.spec_withObserved.trans spec)
  generalize judgement : judge orgs o = j at judged ⊢
  let y := x.withObserved.setObserved j.observed
  have copy : y.Copies x := .withObserved x
  have status (cs : List Condition) : Status.mk (Condition.setAll y.status.conditions cs)
      y.status.observed = ⟨Condition.setAll o.status.conditions cs, some j.observed⟩ := by
    rw [← conditions]
    show Status.mk (Condition.setAll x.withObserved.status.conditions cs) _ = _
    unfold Resource.withObserved Resource.allocate
    split <;> rfl
  have left (cs : List Condition) (hcs : cs = j.conditions m.now) :
      (s₁.draw (x.withStatus ⟨Condition.setAll y.status.conditions cs,
        y.status.observed⟩)).unversioned = (o.tended j m.now).unversioned := by
    rw [status, hcs]
    exact congrArg (Resource.withStatus · _) alike
  have prepared :
      perform orgs m (inquire (logic.prepare x)) s₁ = ((x.withObserved, .ok ()), s₁) := by
    rw [judges.prepare]
    rfl
  have applied :
      perform orgs m (inquire (logic.apply x.withObserved)) s₁ = ((y, j.result), s₁) := by
    rw [judges.apply, judged]
  have start : perform orgs m (live logic .inStore .live o) s = perform orgs m
      (match (y, j.result) with
        | (o, .error e) => fail .initialized o e
        | (o, .ok ()) => conclude logic .applied true o) s₁ :=
    (perform_step added).trans <| (perform_step prepared).trans (perform_step applied)
  cases failed : j.failure with
  | none =>
    have result : j.result = .ok () := by rw [Judgement.result, failed]
    rw [result] at start
    obtain ⟨t, concluded, swaps⟩ := perform_conclude orgs m judges guarded.keyed
      stored₁ copy
    refine ⟨_, t, _, start.trans concluded, guarded.trans (key ▸ swaps), left _ ?_, rfl⟩
    rw [Judgement.conditions, failed]
  | some e =>
    have result : j.result = .error e := by rw [Judgement.result, failed]
    rw [result] at start
    obtain ⟨t, concluded, swaps⟩ := perform_fail orgs m guarded.keyed
      stored₁ copy (judges.fresh orgs o e (judgement ▸ failed))
    refine ⟨_, t, _, start.trans concluded, guarded.trans (key ▸ swaps), left _ ?_, rfl⟩
    rw [Judgement.conditions, failed]

theorem perform_finalize [ReflBEq S] (wait : Span) (judges : logic.Judges judge) (keyed : s.Keyed)
    (stored : s.get? o.key = some o) (marked : o.wasDeleted = true) :
    ∃ t n, perform orgs m (finalize logic .inStore wait .deleting o) s = (.ok none, t) ∧
      s.Swaps t o.key n ∧ n.map (·.unversioned) = o.dismissed.map (·.unversioned) := by
  obtain ⟨x, t, n, removed, swaps, left⟩ :=
    perform_remove orgs m keyed stored marked
  refine ⟨t, n, ?_, swaps, left⟩
  have clean : perform orgs m (inquire (logic.cleanUp o)) s = (.ok true, s) := by
    rw [judges.cleanUp]
    rfl
  exact (perform_step clean).trans <| (perform_step removed).trans <|
    perform_step (judges.release orgs m x t)

theorem perform_run [ReflBEq S] (wait : Span) (key : Key) (judges : logic.Judges judge)
    (keyed : s.Keyed) :
    ∃ r t n, perform orgs m (run logic .inStore wait key) s = (r, t) ∧ s.Swaps t key n ∧
      n.map (·.unversioned) =
        ((s.get? key).map (·.unversioned)).bind (fun o => o.left (judge orgs o) m.now) ∧
      r.failure? =
        ((s.get? key).map (·.unversioned)).bind (fun o => o.failure (judge orgs o)) := by
  cases stored : s.get? key with
  | none =>
    refine ⟨.ok none, s, none, ?_, stored ▸ .rfl keyed, rfl, rfl⟩
    have get : perform orgs m (get key) s = (.error (Store.missing S key), s) := by
      show (s.get key, s) = _
      rw [Store.get, stored]
    exact perform_step get
  | some o =>
    have get : perform orgs m (get key) s = (.ok o, s) := by
      show (s.get key, s) = _
      rw [Store.get, stored]
    have start : perform orgs m (run logic .inStore wait key) s = _ := perform_step get
    dsimp only at start
    obtain rfl : o.key = key := keyed key o stored
    have judged : judge orgs o.unversioned = judge orgs o :=
      judges.congr orgs o o.unversioned rfl rfl
    simp only [Option.map_some, Option.bind_some]
    rw [judged, Resource.left_unversioned, Resource.failure_unversioned]
    unfold Resource.left Resource.failure
    cases fits : o.fits with
    | false =>
      rw [fits] at start
      exact ⟨_, s, some o, start, stored ▸ .rfl keyed, rfl, rfl⟩
    | true =>
      rw [fits] at start
      cases mark : o.wasDeleted with
      | false =>
        rw [mark] at start
        obtain ⟨r, t, n, lived, swaps, left, failure⟩ :=
          perform_live orgs m judges keyed stored mark
        exact ⟨r, t, some n, start.trans lived, swaps, congrArg some left, failure⟩
      | true =>
        rw [mark] at start
        obtain ⟨t, n, finalized, swaps, left⟩ :=
          perform_finalize orgs m wait judges keyed stored mark
        exact ⟨_, t, n, start.trans finalized, swaps, left, rfl⟩

end Pass
end Tenancy
