import Mathlib.Data.List.Perm.Basic
import Tenancy.Proofs.Reconcile.Tending

/-! Passes over the stores of both kinds, one after the other. What a pass leaves depends on what
was stored under its key and, for a deployment, on what the organizations declare; and of the latter
it changes nothing. So passing again changes nothing, and passes over different objects may go in
any order. -/

namespace Tenancy

namespace Condition

variable {c c' d : Condition} {cs cs' : List Condition}

structure Twin (now now' : Instant) (c d : Condition) : Prop where
  agrees : c.agrees d = true
  since : c.since = d.since ∨ c.since = now ∧ d.since = now'

variable {now now' : Instant}

theorem Twin.rfl : Twin now now' c c := ⟨agrees_refl c, .inl (Eq.refl _)⟩

theorem Twin.set (h : Twin now now' c c') (hs : List.Forall₂ (Twin now now') cs cs') :
    List.Forall₂ (Twin now now') (c.set cs) (c'.set cs') := by
  obtain ⟨kind, status, reason, message⟩ := agrees_iff.1 h.agrees
  induction hs with
  | nil => exact .cons h .nil
  | @cons d d' ds ds' hd hs ih =>
    obtain ⟨kind', status', reason', message'⟩ := agrees_iff.1 hd.agrees
    have same : d.agrees c = d'.agrees c' := by
      unfold Condition.agrees
      rw [kind, status, reason, message, kind', status', reason', message']
    unfold Condition.set
    rw [kind, kind', same]
    split
    · split
      · exact .cons hd hs
      · exact .cons h hs
    · exact .cons hd ih

end Condition

namespace Judgement

theorem setAll_setAll (j : Judgement) (now now' : Instant) (cs : List Condition) :
    Condition.setAll (Condition.setAll cs (j.conditions now)) (j.conditions now') =
      Condition.setAll cs (j.conditions now) := by
  have pair {c d c' d' : Condition} (ne : d.kind ≠ c.kind) (hc : c.agrees c' = true)
      (hd : d.agrees d' = true) :
      Condition.setAll (Condition.setAll cs [c, d]) [c', d'] = Condition.setAll cs [c, d] :=
    Condition.setAll_setAll (by simpa using ne.symm) cs (by simp [hc, hd])
  unfold conditions
  cases j.failure with
  | none => exact pair nofun rfl rfl
  | some e => exact pair nofun (Condition.agrees_refl (.failure e.message now)) rfl

theorem setAll_twin (j : Judgement) (now now' : Instant) (cs : List Condition) :
    List.Forall₂ (Condition.Twin now now') (Condition.setAll cs (j.conditions now))
      (Condition.setAll cs (j.conditions now')) := by
  have start : List.Forall₂ (Condition.Twin now now') cs cs :=
    List.forall₂_same.2 fun _ _ => .rfl
  unfold conditions
  cases j.failure with
  | none =>
    have success : (Condition.success now).Twin now now' (.success now') := ⟨rfl, .inr ⟨rfl, rfl⟩⟩
    have ready : (Condition.ready now).Twin now now' (.ready now') := ⟨rfl, .inr ⟨rfl, rfl⟩⟩
    exact ready.set (success.set start)
  | some e =>
    have failure : (Condition.failure e.message now).Twin now now' (.failure e.message now') :=
      ⟨Condition.agrees_refl (.failure e.message now), .inr ⟨rfl, rfl⟩⟩
    have notReady : (Condition.notReady now).Twin now now' (.notReady now') :=
      ⟨rfl, .inr ⟨rfl, rfl⟩⟩
    exact notReady.set (failure.set start)

end Judgement

namespace Resource

variable {S : Type} {o d : Resource S} {j : Judgement} {now now' : Instant}

structure Declares (o d : Resource S) : Prop where
  key : d.key = o.key
  spec : d.spec = o.spec

theorem Declares.option_refl (o : Option (Resource S)) : Option.Rel Declares o o := by
  cases o with
  | none => exact .none
  | some o => exact .some ⟨rfl, rfl⟩

/-- The same object, but for times that were taken from the clock. -/
structure Twin (now now' : Instant) (o d : Resource S) : Prop where
  typeMeta : d.typeMeta = o.typeMeta
  metadata : d.metadata = o.metadata
  spec : d.spec = o.spec
  observed : d.status.observed = o.status.observed
  conditions :
    List.Forall₂ (Condition.Twin now now') o.status.conditions d.status.conditions

theorem Twin.rfl : o.Twin now now' o :=
  ⟨Eq.refl _, Eq.refl _, Eq.refl _, Eq.refl _, List.forall₂_same.2 fun _ _ => .rfl⟩

variable [ResourceKind S]

theorem left_twin (o : Resource S) (j : Judgement) (now now' : Instant) :
    Option.Rel (Twin now now') (o.left j now) (o.left j now') := by
  unfold left
  split
  · exact .some .rfl
  · split
    · cases o.dismissed with
      | none => exact .none
      | some d => exact .some .rfl
    · exact .some ⟨Eq.refl _, Eq.refl _, Eq.refl _, Eq.refl _, j.setAll_twin now now' _⟩

theorem left_of_unmarked (j : Judgement) (now : Instant) (unmarked : o.wasDeleted = false) :
    ∃ d, o.left j now = some d := by
  unfold left
  rw [unmarked]
  split
  · exact ⟨_, rfl⟩
  · exact ⟨_, rfl⟩

theorem tended_tended (o : Resource S) (j : Judgement) (now now' : Instant) :
    (o.tended j now).tended j now' = o.tended j now := by
  have has : (o.tended j now).metadata.hasFinalizer (ResourceKind.finalizer S) = true := by
    show (o.metadata.addFinalizer _).2.hasFinalizer _ = true
    unfold Metadata.addFinalizer
    split
    · assumption
    · simp [Metadata.hasFinalizer]
  unfold tended at has ⊢
  rw [withFinalizer_of_has has]
  exact congrArg (fun cs => (o.withFinalizer _).withStatus ⟨cs, _⟩)
    (j.setAll_setAll now now' o.status.conditions)

theorem dismissed_of_dismissed (h : o.dismissed = some d) :
    d.typeMeta = o.typeMeta ∧ o.Declares d ∧ d.wasDeleted = o.wasDeleted ∧
      d.dismissed = some d := by
  unfold dismissed at h
  split at h
  next =>
    dsimp only at h
    split at h
    · cases h
    · cases h
      refine ⟨rfl, ⟨rfl, rfl⟩, rfl, ?_⟩
      have lacks : (o.withoutFinalizer (ResourceKind.finalizer S)).hasOwnFinalizer = false := by
        simp [hasOwnFinalizer, withoutFinalizer, Metadata.hasFinalizer, Metadata.removeFinalizer]
      unfold dismissed
      rw [if_neg (lacks ▸ Bool.false_ne_true)]
  next lacks =>
    cases h
    exact ⟨rfl, ⟨rfl, rfl⟩, rfl, by rw [dismissed, if_neg lacks]⟩

theorem left_of_left (now' : Instant) (h : o.left j now = some d) :
    o.Declares d ∧ d.left j now' = some d ∧ d.failure j = o.failure j := by
  unfold left at h
  split at h
  next misfit =>
    cases h
    exact ⟨⟨rfl, rfl⟩, by rw [left, if_pos misfit], rfl⟩
  next fits =>
    split at h
    next marked =>
      obtain ⟨typeMeta, declares, mark, again⟩ := dismissed_of_dismissed h
      have same : d.fits = o.fits := by rw [Resource.fits, typeMeta, ← Resource.fits]
      refine ⟨declares, ?_, ?_⟩
      · rw [left, same, if_neg fits, mark, if_pos marked, again]
      · rw [failure, failure, same, mark, typeMeta]
    next unmarked =>
      cases h
      have mark : (o.tended j now).wasDeleted = o.wasDeleted := by
        show (o.metadata.addFinalizer _).2.wasDeleted = _
        unfold Metadata.addFinalizer
        split <;> rfl
      have fits' : (o.tended j now).fits = o.fits := rfl
      refine ⟨⟨(o.key_withFinalizer _), rfl⟩, ?_, ?_⟩
      · rw [left, fits', if_neg fits, mark, if_neg unmarked, tended_tended]
      · rw [failure, failure, fits', mark]
        rfl

theorem failure_of_left_eq_none (h : o.left j now = none) : o.failure j = none := by
  unfold left at h
  split at h
  next => cases h
  next fits =>
    split at h
    next marked => rw [failure, if_neg fits, if_pos marked]
    next => cases h

end Resource

inductive Job where
  | organization (key : Key)
  | deployment (key : Key)
deriving DecidableEq

namespace Job

@[reducible] def Spec : Job → Type
  | organization _ => OrganizationSpec
  | deployment _ => DeploymentSpec

instance : (job : Job) → ResourceKind job.Spec
  | organization _ => inferInstanceAs (ResourceKind OrganizationSpec)
  | deployment _ => inferInstanceAs (ResourceKind DeploymentSpec)

def own : (job : Job) → Stores → Option (Resource job.Spec)
  | organization k, a => a.orgs.get? k
  | deployment k, a => a.deps.get? k

def seen (job : Job) (a : Stores) : Option (Resource job.Spec) := (job.own a).map (·.unversioned)

def judge (a : Stores) : (job : Job) → Resource job.Spec → Judgement
  | organization _ => Organization.judge a.orgs.list
  | deployment _ => Deployment.judge a.orgs.list

end Job

namespace Stores

variable {a b : Stores} {wait : Span} {job : Job} {m : Moment} {r : Outcome}

structure Keyed (a : Stores) : Prop where
  deps : a.deps.Keyed
  orgs : a.orgs.Keyed

def pass (wait : Span) (a : Stores) (m : Moment) : Job → Outcome × Stores
  | .organization k =>
    let (r, orgs) := Pass.perform a.orgs.list m (.run Organization.logic .inStore wait k) a.orgs
    (r, { a with orgs })
  | .deployment k =>
    let (r, deps) := Pass.perform a.orgs.list m (.run Deployment.logic .inStore wait k) a.deps
    (r, { a with deps })

def passes (wait : Span) : List (Job × Moment) → Stores → List (Job × Outcome) × Stores
  | [], a => ([], a)
  | (job, m) :: rest, a =>
    let (r, b) := a.pass wait m job
    let (rs, c) := passes wait rest b
    ((job, r) :: rs, c)

theorem passes_cons (wait : Span) (job : Job) (m : Moment) (rest : List (Job × Moment))
    (a : Stores) :
    passes wait ((job, m) :: rest) a =
      ((job, (a.pass wait m job).1) :: (passes wait rest (a.pass wait m job).2).1,
        (passes wait rest (a.pass wait m job).2).2) := rfl

structure Passed (a : Stores) (m : Moment) (job : Job) (r : Outcome) (b : Stores) : Prop where
  keyed : b.Keyed
  own : job.seen b = (job.seen a).bind fun o => o.left (job.judge a o) m.now
  failure : r.failure? = (job.seen a).bind fun o => o.failure (job.judge a o)
  others : ∀ j, j ≠ job → j.own b = j.own a

theorem passed (keyed : a.Keyed) (wait : Span) (m : Moment) (job : Job) :
    Passed a m job (a.pass wait m job).1 (a.pass wait m job).2 := by
  cases job with
  | organization k =>
    obtain ⟨r, t, n, performed, swaps, left, failure⟩ :=
      Pass.perform_run a.orgs.list m wait k Organization.judges keyed.orgs
    have pass : a.pass wait m (.organization k) = (r, { a with orgs := t }) := by
      simp only [Stores.pass, performed]
    rw [pass]
    refine ⟨⟨keyed.deps, swaps.keyed⟩, (congrArg _ swaps.own).trans left, failure, ?_⟩
    rintro (j | j) hj
    · exact swaps.others j fun h => hj (h ▸ rfl)
    · rfl
  | deployment k =>
    obtain ⟨r, t, n, performed, swaps, left, failure⟩ :=
      Pass.perform_run a.orgs.list m wait k Deployment.judges keyed.deps
    have pass : a.pass wait m (.deployment k) = (r, { a with deps := t }) := by
      simp only [Stores.pass, performed]
    rw [pass]
    refine ⟨⟨swaps.keyed, keyed.orgs⟩, (congrArg _ swaps.own).trans left, failure, ?_⟩
    rintro (j | j) hj
    · rfl
    · exact swaps.others j fun h => hj (h ▸ rfl)

end Stores

/-! ### What a judgement rests on -/

theorem Deployment.judge_congr {s t : Store OrganizationSpec} (hs : s.Keyed) (ht : t.Keyed)
    (same : ∀ k, Option.Rel Resource.Declares (s.get? k) (t.get? k)) (d : Deployment) :
    judge t.list d = judge s.list d := by
  have found : Option.Rel Resource.Declares (parent? d s.list) (parent? d t.list) :=
    Store.find?_list_rel (f := fun k => k.name == d.organizationName) hs ht fun k _ => same k
  unfold judge verdict
  generalize parent? d s.list = p at found
  generalize parent? d t.list = q at found
  cases found with
  | none => rfl
  | some declares =>
    simp only [effective, Resource.registers, Resource.strategy, declares.spec, Option.isSome]

namespace Job

variable {a b : Stores} {job : Job} {o d : Resource job.Spec}

def Steady (a b : Stores) : Prop :=
  ∀ k, Option.Rel Resource.Declares (a.orgs.get? k) (b.orgs.get? k)

theorem judge_congr (ha : a.Keyed) (hb : b.Keyed)
    (same : ∀ k, job = .deployment k → Steady a b) (declares : o.Declares d) :
    job.judge b d = job.judge a o := by
  cases job with
  | organization => exact Organization.judges.congr b.orgs.list o d declares.key declares.spec
  | deployment k =>
    refine (Deployment.judges.congr _ o d declares.key declares.spec).trans ?_
    exact Deployment.judge_congr ha.orgs hb.orgs (same k rfl) o

end Job

namespace Stores

variable {a b c : Stores} {wait : Span} {job : Job} {m m' : Moment} {r r' : Outcome}

def Still (a b : Stores) : Prop := ∀ job : Job, job.seen b = job.seen a

theorem Passed.again (ha : a.Keyed) (h : Passed a m job r b) (h' : Passed b m' job r' c) :
    b.Still c ∧ r'.failure? = r.failure? := by
  have steady (k : Key) (hk : job = .deployment k) : Job.Steady a b := fun l => by
    have same : b.orgs.get? l = a.orgs.get? l := h.others (.organization l) (hk ▸ nofun)
    exact same ▸ Resource.Declares.option_refl _
  have own : job.seen c = job.seen b ∧ r'.failure? = r.failure? := by
    rw [h'.own, h'.failure, h.failure]
    have before := h.own
    generalize job.seen a = x at before ⊢
    generalize job.seen b = y at before ⊢
    cases x with
    | none =>
      cases before
      exact ⟨rfl, rfl⟩
    | some o =>
      cases y with
      | none => exact ⟨rfl, (Resource.failure_of_left_eq_none before.symm).symm⟩
      | some d =>
        obtain ⟨declares, left, failure⟩ := Resource.left_of_left m'.now before.symm
        have judged := Job.judge_congr ha h.keyed steady declares
        exact ⟨by rw [Option.bind_some, judged, left], by
          rw [Option.bind_some, judged, Option.bind_some, failure]⟩
  refine ⟨fun j => ?_, own.2⟩
  by_cases hj : j = job
  · exact hj ▸ own.1
  · rw [Job.seen, h'.others j hj, Job.seen]

/-- After a pass, further passes over the same object change nothing but its version, and end as the
first one did. -/
theorem passes_again (keyed : a.Keyed) (wait : Span) (job : Job) (m : Moment) (ms : List Moment) :
    let first := a.pass wait m job
    let again := passes wait (ms.map fun m => (job, m)) first.2
    first.2.Still again.2 ∧
      again.1.map (fun p => p.2.failure?) = ms.map fun _ => first.1.failure? := by
  dsimp only
  induction ms generalizing a m with
  | nil => exact ⟨fun _ => rfl, rfl⟩
  | cons m' ms ih =>
    have first := passed keyed wait m job
    have second := passed first.keyed wait m' job
    obtain ⟨still, failure⟩ := first.again keyed second
    obtain ⟨still', failures⟩ := ih first.keyed m'
    rw [List.map_cons, passes_cons]
    refine ⟨fun j => (still' j).trans (still j), ?_⟩
    rw [List.map_cons, failures, failure, List.map_cons]

def paired : Stores where
  deps := (History.after [.create ⟨1⟩ { (Resource.new "a" "b.c" : Deployment) with
    status := ⟨[.notReady .epoch, .unset .synced, .ready .epoch], none⟩ }]).store
  orgs := (History.after [.create ⟨2⟩ { (Resource.new "a" "b" : Organization) with
    spec := ⟨some "c", [⟨"ipam", "pool"⟩], none⟩ }]).store

theorem keyed_paired : paired.Keyed :=
  ⟨History.keyed_after _, History.keyed_after _⟩

theorem passes_again_paired :
    let job := Job.deployment ⟨"a", "b.c"⟩
    let first := paired.pass ⟨0⟩ ⟨⟨7, 0⟩, ⟨1⟩⟩ job
    let again := passes ⟨0⟩ [(job, ⟨⟨8, 0⟩, ⟨2⟩⟩), (job, ⟨⟨9, 0⟩, ⟨2⟩⟩)] first.2
    paired.Keyed ∧ (job.seen again.2).map (·.status.conditions) =
      some [.ready ⟨7, 0⟩, .success ⟨7, 0⟩, .ready .epoch] ∧
    first.2.Still again.2 ∧ again.1.map (fun p => p.2.failure?) = [none, none] :=
  ⟨keyed_paired, rfl,
    passes_again keyed_paired ⟨0⟩ (.deployment ⟨"a", "b.c"⟩) ⟨⟨7, 0⟩, ⟨1⟩⟩
      [⟨⟨8, 0⟩, ⟨2⟩⟩, ⟨⟨9, 0⟩, ⟨2⟩⟩]⟩

/-! ### Passes in any order -/

/-- If a deployment has its turn, no organization that has is about to vanish. -/
def Standing (a : Stores) (jobs : List Job) : Prop :=
  ∀ d k, .deployment d ∈ jobs → .organization k ∈ jobs →
    ∀ o, a.orgs.get? k = some o → o.wasDeleted = false

theorem Passed.steady (h : Passed a m job r b)
    (standing : ∀ k, job = .organization k → ∀ o, a.orgs.get? k = some o → o.wasDeleted = false) :
    Job.Steady a b := by
  intro k
  by_cases hk : Job.organization k = job
  · subst hk
    have own : (b.orgs.get? k).map (·.unversioned) = ((a.orgs.get? k).map (·.unversioned)).bind _ :=
      h.own
    have unmarked := standing k rfl
    generalize a.orgs.get? k = x at own unmarked
    generalize b.orgs.get? k = y at own
    cases x with
    | none =>
      obtain rfl : y = none := Option.map_eq_none_iff.1 own
      exact .none
    | some o =>
      have live : o.unversioned.wasDeleted = false := unmarked o rfl
      obtain ⟨d, left⟩ := Resource.left_of_unmarked
        ((Job.organization k).judge a o.unversioned) m.now live
      obtain ⟨e, rfl, rfl⟩ := Option.map_eq_some_iff.1 (own.trans left)
      obtain ⟨declares, -, -⟩ := Resource.left_of_left m.now left
      exact .some ⟨declares.key, declares.spec⟩
  · have same : b.orgs.get? k = a.orgs.get? k := h.others _ hk
    exact same ▸ Resource.Declares.option_refl _

theorem passes_of_nodup (keyed : a.Keyed) (wait : Span) (clock : Job → Moment) {jobs : List Job}
    (distinct : jobs.Nodup) (standing : a.Standing jobs) :
    let x := passes wait (jobs.map fun j => (j, clock j)) a
    (∀ j ∈ jobs, j.seen x.2 =
      (j.seen a).bind fun o => o.left (j.judge a o) (clock j).now) ∧
    (∀ j, j ∉ jobs → j.own x.2 = j.own a) ∧
    x.1.map (fun p => (p.1, p.2.failure?)) =
      jobs.map fun j => (j, (j.seen a).bind fun o => o.failure (j.judge a o)) := by
  dsimp only
  induction jobs generalizing a with
  | nil => exact ⟨fun _ h => (List.not_mem_nil h).elim, fun _ _ => rfl, rfl⟩
  | cons job rest ih =>
    obtain ⟨fresh, distinct⟩ := List.nodup_cons.1 distinct
    have h := passed keyed wait (clock job) job
    rw [List.map_cons, passes_cons]
    generalize (a.pass wait (clock job) job).1 = r at h ⊢
    generalize (a.pass wait (clock job) job).2 = b at h ⊢
    have unmet {j : Job} (hj : j ∈ rest) : j ≠ job := fun he => fresh (he ▸ hj)
    have standing' : b.Standing rest := fun d k hd hk o ho => by
      have same : b.orgs.get? k = a.orgs.get? k := h.others (.organization k) (unmet hk)
      exact standing d k (List.mem_cons_of_mem _ hd) (List.mem_cons_of_mem _ hk) o (same ▸ ho)
    have judged {j : Job} (hj : j ∈ rest) : j.judge b = j.judge a := funext fun o => by
      refine Job.judge_congr keyed h.keyed (fun d hd => h.steady fun k hk => ?_) ⟨rfl, rfl⟩
      exact standing d k (hd ▸ List.mem_cons_of_mem _ hj) (hk ▸ List.mem_cons_self ..)
    have seen {j : Job} (hj : j ∈ rest) : j.seen b = j.seen a := by
      rw [Job.seen, h.others j (unmet hj), Job.seen]
    obtain ⟨visited, unvisited, failures⟩ := ih h.keyed distinct standing'
    refine ⟨fun j hj => ?_, fun j hj => ?_, ?_⟩
    · rcases List.mem_cons.1 hj with rfl | hj
      · show (j.own _).map _ = _
        rw [unvisited j fresh]
        exact h.own
      · exact (visited j hj).trans (by rw [seen hj, judged hj])
    · obtain ⟨other, hj⟩ := not_or.1 (mt List.mem_cons.2 hj)
      exact (unvisited j hj).trans (h.others j other)
    · show (job, r.failure?) :: List.map _ _ = (job, _) :: List.map _ rest
      rw [failures, h.failure]
      congr 1
      exact List.map_congr_left fun j hj => by rw [seen hj, judged hj]

/-- Passes over different objects come to the same in every order, but for versions and for times
that were taken from the clock. -/
theorem passes_perm (keyed : a.Keyed) (wait : Span) (clock clock' : Job → Moment)
    {jobs jobs' : List Job} (distinct : jobs.Nodup) (standing : a.Standing jobs)
    (order : jobs.Perm jobs') :
    let x := passes wait (jobs.map fun j => (j, clock j)) a
    let y := passes wait (jobs'.map fun j => (j, clock' j)) a
    (∀ j ∈ jobs, Option.Rel (Resource.Twin (clock j).now (clock' j).now) (j.seen x.2)
      (j.seen y.2)) ∧
    (∀ j, j ∉ jobs → j.own x.2 = j.own y.2) ∧
    (x.1.map fun p => (p.1, p.2.failure?)).Perm (y.1.map fun p => (p.1, p.2.failure?)) := by
  have standing' : a.Standing jobs' := fun d k hd hk =>
    standing d k (order.mem_iff.2 hd) (order.mem_iff.2 hk)
  obtain ⟨visited, unvisited, failures⟩ := passes_of_nodup keyed wait clock distinct standing
  obtain ⟨visited', unvisited', failures'⟩ :=
    passes_of_nodup keyed wait clock' (order.nodup_iff.1 distinct) standing'
  refine ⟨fun j hj => ?_, fun j hj => ?_, ?_⟩
  · rw [visited j hj, visited' j (order.mem_iff.1 hj)]
    cases j.seen a with
    | none => exact .none
    | some o => exact o.left_twin _ _ _
  · exact (unvisited j hj).trans (unvisited' j (mt order.mem_iff.2 hj)).symm
  · rw [failures, failures']
    exact order.map _

theorem passes_perm_paired :
    let jobs := [Job.organization ⟨"a", "b"⟩, .deployment ⟨"a", "b.c"⟩]
    let x := passes ⟨0⟩ (jobs.map fun j => (j, ⟨⟨7, 0⟩, ⟨1⟩⟩)) paired
    let y := passes ⟨0⟩ (jobs.reverse.map fun j => (j, ⟨⟨9, 0⟩, ⟨1⟩⟩)) paired
    paired.Keyed ∧ jobs.Nodup ∧ paired.Standing jobs ∧ jobs.Perm jobs.reverse ∧
    (∀ j ∈ jobs, Option.Rel (Resource.Twin ⟨7, 0⟩ ⟨9, 0⟩) (j.seen x.2) (j.seen y.2)) ∧
    (x.1.map fun p => (p.1, p.2.failure?)).Perm (y.1.map fun p => (p.1, p.2.failure?)) := by
  have distinct : [Job.organization ⟨"a", "b"⟩, .deployment ⟨"a", "b.c"⟩].Nodup := by decide
  have standing : paired.Standing [.organization ⟨"a", "b"⟩, .deployment ⟨"a", "b.c"⟩] := by
    intro d k hd hk o ho
    obtain rfl : k = ⟨"a", "b"⟩ := by simpa using hk
    have unmarked : (paired.orgs.get? ⟨"a", "b"⟩).map (·.wasDeleted) = some false := rfl
    rw [ho] at unmarked
    exact Option.some.inj unmarked
  have order := (List.reverse_perm [Job.organization ⟨"a", "b"⟩, .deployment ⟨"a", "b.c"⟩]).symm
  obtain ⟨visited, -, outcomes⟩ := passes_perm keyed_paired ⟨0⟩ (fun _ => ⟨⟨7, 0⟩, ⟨1⟩⟩)
    (fun _ => ⟨⟨9, 0⟩, ⟨1⟩⟩) distinct standing order
  exact ⟨keyed_paired, distinct, standing, order, visited, outcomes⟩

end Stores
end Tenancy
