import Tenancy.Proofs.Control.Chains
import Tenancy.Proofs.Control.Coverage
import Tenancy.Proofs.Reconcile.Pace

/-! How far apart passes over a key begin. Once additions have stopped and the pace of the key is
steady, every pass over it leaves a timer of the steady wait, or of the wait after an error, so that
no chain begins two passes within that. -/

namespace Tenancy

namespace Deed

variable {S : Type}

def fails (k : Key) : Deed S → Bool
  | ended l (.error _) => l = k
  | _ => false

def forgets (identity : String) : Deed S → Bool
  | asked _ (.logic (.forget i)) => i = identity
  | _ => false

end Deed

namespace Station

variable {S : Type} [ResourceKind S] {allowed : Station S → Deed S → Station S → Prop}
  {c c' : Station S} {k : Key} {d : Deed S}

/-! ### What a loop keeps -/

theorem Step.past {i : String} (step : Step c d c') (h : c.loop.pacer.Past i)
    (kept : d.forgets i = false) : c'.loop.pacer.Past i := by
  obtain ⟨-, -, -, same | ⟨j, counted⟩ | ⟨l, j, rfl, forgot⟩⟩ := step.pacer
  · rwa [same]
  · rw [counted]
    exact h.nextDelay j
  · rw [forgot]
    exact h.forget (of_decide_eq_false kept)

structure Follows (given : Settings) (timing : Timing) (logic : Logic S)
    (c : Station S) : Prop where
  settings : c.loop.settings = given
  timing : c.loop.timing = timing
  logic : c.loop.logic = logic
  steadyWait : c.loop.pacer.steadyWait = given.steadyWait

theorem Follows.step {settings : Settings} {timing : Timing} {logic : Logic S}
    (h : c.Follows settings timing logic) (step : Step c d c') :
    c'.Follows settings timing logic := by
  obtain ⟨kept, timed, same, paced⟩ := step.pacer
  refine ⟨kept.trans h.settings, timed.trans h.timing, same.trans h.logic, ?_⟩
  obtain same | ⟨i, counted⟩ | ⟨_, i, -, forgot⟩ := paced
  · rw [same]
    exact h.steadyWait
  · rw [counted, Pacer.steadyWait_nextDelay]
    exact h.steadyWait
  · rw [forgot]
    exact h.steadyWait

theorem Run.follows {settings : Settings} {timing : Timing} {logic : Logic S}
    {tr : List (Nat × Deed S)} (h : c.Follows settings timing logic) (run : Run allowed c tr c') :
    c'.Follows settings timing logic := by
  induction run with
  | here => exact h
  | step _ step _ ih => exact ih.step step

theorem Run.past {i : String} {tr : List (Nat × Deed S)} (h : c.loop.pacer.Past i)
    (run : Run allowed c tr c') (kept : ∀ x ∈ tr, x.2.forgets i = false) :
    c'.loop.pacer.Past i := by
  induction run with
  | here => exact h
  | step _ step _ ih =>
    obtain ⟨before, now⟩ := List.forall_mem_append.1 kept
    exact step.past (ih before) (now _ (List.mem_singleton_self _))

/-! ### A steady pace -/

/-- The key was counted often enough, and every pass over it is told the steady wait. -/
structure Settled (settings : Settings) (timing : Timing)
    (apply : Resource S → Inquiry (Hooked S)) (k : Key) (c : Station S) : Prop where
  tidy : c.Tidy
  follows : c.Follows settings timing (.paced apply)
  past : c.loop.pacer.Past k.identity
  passes : ∀ (i : Nat) l p, c.loop.jobs[i]? = some (some (l, p)) → l = k →
    Pass.Paced apply settings.shortWait settings.steadyWait k p

variable {settings : Settings} {timing : Timing} {apply : Resource S → Inquiry (Hooked S)}

theorem Answered.steadily {q : Request S} {r : q.Answer} (answered : Answered c q r c')
    (tidy : c.Tidy) (past : c.loop.pacer.Past k.identity) :
    Pass.Steadily k c.loop.pacer.steadyWait q r := by
  refine ⟨answered.apt tidy.keyed, fun d asked => ?_⟩
  cases answered with
  | nextDelay identity =>
    simp only [Sigma.mk.injEq, Request.logic.injEq, Ask.nextDelay.injEq] at asked
    obtain ⟨rfl, told⟩ := asked
    rw [past.nextDelay_self] at told
    exact (eq_of_heq told).symm
  | get | update | updateStatus | clock | organizations | forget | sleep | entered => cases asked

theorem paced_step (tidy : c.Tidy) (follows : c.Follows settings timing (.paced apply))
    (past : c.loop.pacer.Past k.identity) (step : Step c d c')
    (h : ∀ (i : Nat) l p, c.loop.jobs[i]? = some (some (l, p)) → l = k →
      Pass.Paced apply settings.shortWait settings.steadyWait k p) :
    ∀ (i : Nat) l p, c'.loop.jobs[i]? = some (some (l, p)) → l = k →
      Pass.Paced apply settings.shortWait settings.steadyWait k p := by
  refine step.passes (P := fun l p => l = k → Pass.Paced apply settings.shortWait
    settings.steadyWait k p) ?_ ?_ ?_ h
  · rintro l - rfl
    rw [follows.logic, follows.settings]
    exact .inr ⟨[], .here _, List.forall_mem_nil _⟩
  · rintro l q next r b before answered rfl
    have told := answered.steadily tidy past
    rw [follows.steadyWait] at told
    exact (before rfl).next told
  · rintro l -
    exact .inl ⟨_, rfl⟩

theorem Settled.step (h : c.Settled settings timing apply k) (step : Step c d c')
    (kept : d.forgets k.identity = false) : c'.Settled settings timing apply k :=
  ⟨h.tidy.step step, h.follows.step step, step.past h.past kept,
    paced_step h.tidy h.follows h.past step h.passes⟩

theorem settled_of_begins (tidy : c.Tidy) (follows : c.Follows settings timing (.paced apply))
    (past : c.loop.pacer.Past k.identity) (step : Step c d c') (begins : d.begins k = true) :
    c'.Settled settings timing apply k := by
  obtain rfl := Deed.eq_of_begins begins
  have idle := step.traffic.idle tidy
  refine ⟨tidy.step step, follows.step step, step.past past rfl, ?_⟩
  refine paced_step tidy follows past step fun i l p at_ hl => ?_
  subst hl
  exact absurd at_ (idle i p)

theorem Run.waits {tr : List (Nat × Deed S)} (steady : (Logic.paced apply).Steady)
    (h : c.Settled settings timing apply k) (run : Run allowed c tr c')
    (kept : ∀ x ∈ tr, x.2.forgets k.identity = false) :
    c'.Settled settings timing apply k ∧ ∀ x ∈ tr, ∀ r w, x.2 = .ended k r →
      r.wait? settings.errorBackoff = some w →
      w = if x.2.fails k then settings.errorBackoff else settings.steadyWait := by
  induction run with
  | here => exact ⟨h, List.forall_mem_nil _⟩
  | @step tr b d c' run step _ ih =>
    obtain ⟨before, now⟩ := List.forall_mem_append.1 kept
    obtain ⟨settled, waits⟩ := ih before
    refine ⟨settled.step step (now _ (List.mem_singleton_self _)),
      List.forall_mem_append.2 ⟨waits, ?_⟩⟩
    rintro x hx r w ended wait
    cases List.mem_singleton.1 hx
    subst ended
    obtain ⟨i, at_⟩ := step.traffic.outcome
    have paced := settled.passes i k _ at_ rfl
    cases r with
    | ok d =>
      cases wait
      exact paced.wait_eq steady
    | error e =>
      cases wait
      exact (if_pos (decide_eq_true rfl)).symm

/-- However a pass over the key ends, the wait that follows takes so long at least: the steady wait,
or the one after a failure. -/
def Lasts (settings : Settings) (timing : Timing) (k : Key) (gap : Nat) (tr : List (Nat × Deed S)) :
    Prop :=
  ∀ x ∈ tr, x.2.ends k = true →
    gap ≤ timing.wait x.1 (if x.2.fails k then settings.errorBackoff else settings.steadyWait)

omit [ResourceKind S] in
/-- Where nothing fails waits take as long as they are told, at least if that is short of thirty
years. -/
theorem lasts_native {tr : List (Nat × Deed S)} (short : settings.steadyWait.nanos ≤
    (Span.ofSeconds (30 * 365 * 86400)).nanos) (fine : ∀ x ∈ tr, x.2.fails k = false) :
    Lasts settings .native k settings.steadyWait.nanos tr := by
  intro x hx _
  rw [fine x hx, if_neg Bool.false_ne_true]
  unfold Timing.native
  dsimp only
  split
  · exact Nat.le_refl _
  · exact short

theorem Run.leaves_late {tr : List (Nat × Deed S)} {gap : Nat}
    (steady : (Logic.paced apply).Steady) (h : c.Settled settings timing apply k)
    (run : Run allowed c tr c') (kept : ∀ x ∈ tr, x.2.forgets k.identity = false)
    (lasts : Lasts settings timing k gap tr) {t : Nat} (start : t ≤ c.now) :
    ∀ x ∈ tr, x.2.leaves k (fun n => n < t + gap) timing x.1 settings.errorBackoff = false := by
  rintro ⟨now, d⟩ hx
  have since := run.later.2 _ hx
  cases d with
  | ended l r =>
    refine Bool.eq_false_iff.2 fun soon => ?_
    obtain ⟨same, soon⟩ := Bool.and_eq_true_iff.1 soon
    obtain ⟨w, wait, soon⟩ := (Option.any_eq_true _ _).1 soon
    cases of_decide_eq_true same
    have soon := of_decide_eq_true soon
    have long := lasts _ hx same
    rw [← (run.waits steady h kept).2 _ hx r w rfl wait] at long
    dsimp only at since soon long
    omega
  | rest | client | added | fired | began | asked => rfl

/-- As many passes over a key as it has chains begin within the gap, and no more. -/
theorem begins_apart {b b' : Station S} {d d' : Deed S} {tr : List (Nat × Deed S)} {gap : Nat}
    (tidy : b.Tidy) (follows : b.Follows settings timing (.paced apply))
    (steady : (Logic.paced apply).Steady) (past : b.loop.pacer.Past k.identity)
    (first : Step b d c) (begins : d.begins k = true) (run : Run allowed c tr b')
    (quiet : ∀ x ∈ tr, x.2.adds k = 0) (kept : ∀ x ∈ tr, x.2.forgets k.identity = false)
    (lasts : Lasts settings timing k gap tr) (second : Step b' d' c')
    (begins' : d'.begins k = true) (few : b.chains k ≤ tr.countP (·.2.begins k) + 1) :
    b.now + gap ≤ b'.now := by
  by_contra close
  have settled := settled_of_begins tidy follows past first begins
  let soon (n : Nat) : Bool := n < b.now + gap
  have ripe (n : Nat) (hn : n ≤ b'.now) : soon n = true := decide_eq_true (by omega)
  have late : ∀ x ∈ tr, x.2.leaves k soon c.loop.timing x.1 c.loop.settings.errorBackoff =
      false := by
    rw [settled.follows.timing, settled.follows.settings]
    exact run.leaves_late steady settled kept lasts first.later
  -- what begins is counted from the first pass to the second
  have start := first.waiting_of_begins tidy begins fun n hn =>
    ripe n (hn.trans (first.later.trans run.later.1))
  have between := run.waiting settled.tidy ripe quiet late
  have last := second.waiting_of_begins (run.tidy settled.tidy) begins' ripe
  have bound := b.waiting_le_chains k soon
  omega

/-! ### Beginnings -/

def begunAt (k : Key) (tr : List (Nat × Deed S)) : List Nat :=
  (tr.filter (·.2.begins k)).map (·.1)

omit [ResourceKind S] in
theorem split_begunAt {tr : List (Nat × Deed S)} {i t : Nat}
    (h : (begunAt k tr)[i]? = some t) :
    ∃ A d B, tr = A ++ (t, d) :: B ∧ d.begins k = true ∧ A.countP (·.2.begins k) = i := by
  induction tr generalizing i with
  | nil => cases h
  | cons x tr ih =>
    unfold begunAt at h
    cases begins : x.2.begins k with
    | false =>
      simp only [List.filter_cons, begins, Bool.false_eq_true, if_false] at h
      obtain ⟨A, d, B, rfl, hd, hA⟩ := ih h
      exact ⟨x :: A, d, B, rfl, hd, by simp [begins, hA]⟩
    | true =>
      simp only [List.filter_cons, begins, if_true, List.map_cons] at h
      cases i with
      | zero =>
        cases h
        exact ⟨[], x.2, tr, rfl, begins, rfl⟩
      | succ i =>
        obtain ⟨A, d, B, rfl, hd, hA⟩ := ih h
        exact ⟨x :: A, d, B, rfl, hd, by simp [begins, hA]⟩

omit [ResourceKind S] in
theorem split_begunAt_two {tr : List (Nat × Deed S)} {i j t u : Nat} (later : i < j)
    (first : (begunAt k tr)[i]? = some t) (second : (begunAt k tr)[j]? = some u) :
    ∃ A d B d' C, tr = A ++ (t, d) :: B ++ (u, d') :: C ∧ d.begins k = true ∧
      d'.begins k = true ∧ i + B.countP (·.2.begins k) + 1 = j := by
  obtain ⟨A, d', C, rfl, hd', hA⟩ := split_begunAt second
  have first : (begunAt k A)[i]? = some t := by
    have whole : begunAt k (A ++ (u, d') :: C) = begunAt k A ++ begunAt k ((u, d') :: C) := by
      simp [begunAt]
    rwa [whole, List.getElem?_append_left] at first
    rwa [begunAt, List.length_map, ← List.countP_eq_length_filter, hA]
  obtain ⟨A, d, B, rfl, hd, hA'⟩ := split_begunAt first
  refine ⟨A, d, B, d', C, rfl, hd, hd', ?_⟩
  rw [List.countP_append, List.countP_cons_of_pos (by exact hd), hA'] at hA
  omega

/-- Of passes over a key, one begins no sooner than the gap after that which is so many places
before. -/
def Spaced (k : Key) (gap n : Nat) (tr : List (Nat × Deed S)) : Prop :=
  ∀ i j t u, i < j → i + n ≤ j → (begunAt k tr)[i]? = some t → (begunAt k tr)[j]? = some u →
    t + gap ≤ u

theorem Run.spaced {tr : List (Nat × Deed S)} {gap : Nat} (tidy : c.Tidy)
    (follows : c.Follows settings timing (.paced apply)) (steady : (Logic.paced apply).Steady)
    (past : c.loop.pacer.Past k.identity) (run : Run allowed c tr c')
    (quiet : ∀ x ∈ tr, x.2.adds k = 0 ∧ x.2.forgets k.identity = false)
    (lasts : Lasts settings timing k gap tr) : Spaced k gap (c.chains k) tr := by
  intro i j t u later far first second
  obtain ⟨A, d, B, d', C, rfl, begins, begins', count⟩ := split_begunAt_two later first second
  obtain ⟨b', until_, rest⟩ := run.split
  obtain ⟨b, before, since⟩ := until_.split
  obtain ⟨c₁, one, between⟩ := (show Run allowed b ([(t, d)] ++ B) b' from since).split
  obtain ⟨c₂, other, -⟩ := (show Run allowed b' ([(u, d')] ++ C) c' from rest).split
  obtain ⟨rfl, one⟩ := one.one
  obtain ⟨rfl, other⟩ := other.one
  have quietA (x) (hx : x ∈ A) := quiet x (by simp [hx])
  have quietB (x) (hx : x ∈ B) := quiet x (by simp [hx])
  have lastsB : Lasts settings timing k gap B := fun x hx => lasts x (by simp [hx])
  have few : b.chains k ≤ c.chains k + additions k A := before.chains tidy
  rw [additions_eq_zero fun x hx => (quietA x hx).1] at few
  exact begins_apart (before.tidy tidy) (before.follows follows) steady
    (before.past past fun x hx => (quietA x hx).2) one begins between (fun x hx => (quietB x hx).1)
    (fun x hx => (quietB x hx).2) lastsB other begins' (by omega)

/-- Requeueing settles to as many chains as were started. Every time a key is queued by a change, a
related change or the listing one is started at most, and nothing else starts any. Once that has
stopped and the count of the key is past, as many passes as there are chains begin within the wait
that follows a pass, and no more. -/
theorem requeueing_settles {timing : Timing} {logic : Logic S} {withRelated : Bool}
    {store : Store S} {now rank : Nat} {tr : List (Nat × Deed S)} (keyed : store.Keyed)
    (run : Run allowed (start settings timing logic withRelated store now rank) tr c) (k : Key) :
    c.pending k (fun _ => true) ≤ c.chains k ∧ c.chains k ≤ additions k tr ∧
      ∀ tr' c', Run allowed c tr' c' →
        c'.chains k ≤ c.chains k + additions k tr' ∧
        ∀ apply, logic = .paced apply → logic.Steady → c.loop.pacer.Past k.identity →
          (∀ x ∈ tr', x.2.adds k = 0 ∧ x.2.forgets k.identity = false) →
          ∀ gap, Lasts settings timing k gap tr' → Spaced k gap (c.chains k) tr' := by
  have tidy := run.tidy (tidy_start settings timing logic withRelated keyed now rank)
  have follows : c.Follows settings timing logic := run.follows ⟨rfl, rfl, rfl, rfl⟩
  have none : (start settings timing logic withRelated store now rank).chains k = 0 := rfl
  have some := run.chains (k := k) (tidy_start settings timing logic withRelated keyed now rank)
  rw [none, Nat.zero_add] at some
  refine ⟨by unfold chains; omega, some, fun tr' c' run' => ⟨run'.chains tidy, ?_⟩⟩
  rintro apply rfl steady past quiet gap lasts
  exact run'.spaced tidy follows steady past quiet lasts

/-! ### Plays -/

def hasty : Settings := { Settings.default with threshold := 0 }

def lonely : List Cluster.Move × List Cluster.Move :=
  let work : Cluster.Move := .task (.work .organization 0)
  let tick (n : Nat) : Cluster.Move := .tick n .epoch
  let fire (due rank : Nat) : Cluster.Move :=
    .task (.timer .organization ⟨due, rank, ⟨"", "a"⟩⟩)
  ([.organization (.create (.new "" "a")), .task (.launch .organization),
      .task (.takeOwn .organization), .task (.takeOwn .organization)] ++ List.replicate 7 work,
    [tick 1000000000, fire 1000000000 0] ++ List.replicate 6 work ++
      [tick 61000000000, fire 61000000000 1, work])

theorem requeueing_settles_lonely :
    ∃ (tr tr' : List (Nat × Deed OrganizationSpec)) (c c' : Station OrganizationSpec),
      Store.Keyed (S := OrganizationSpec) .empty ∧
      Run Fair (start hasty .native Organization.logic false .empty 0 0) tr c ∧ Run Fair c tr' c' ∧
      Organization.logic.Steady ∧ c.loop.pacer.Past (Key.identity ⟨"", "a"⟩) ∧
      (∀ x ∈ tr', x.2.adds ⟨"", "a"⟩ = 0 ∧ x.2.forgets (Key.identity ⟨"", "a"⟩) = false) ∧
      c.chains ⟨"", "a"⟩ = 1 ∧ begunAt ⟨"", "a"⟩ tr' = [1000000000, 61000000000] ∧
      Lasts hasty .native ⟨"", "a"⟩ hasty.steadyWait.nanos tr' ∧
      1000000000 + hasty.steadyWait.nanos ≤ 61000000000 := by
  have played : (Cluster.play Cluster.orgDeed fairly lonely.1
      (Cluster.vacant OrganizationSpec hasty false, [])).any (fun p =>
        (Cluster.play Cluster.orgDeed fairly lonely.2 (p.1, [])).any fun q =>
          (p.1.host? OrganizationSpec).any (fun c =>
            (c.loop.pacer.count? (Key.identity ⟨"", "a"⟩)).any (c.loop.pacer.threshold < ·) &&
            c.chains ⟨"", "a"⟩ == 1) &&
          q.2.all (fun x => x.2.adds ⟨"", "a"⟩ == 0 && !x.2.forgets (Key.identity ⟨"", "a"⟩) &&
            !x.2.fails ⟨"", "a"⟩) &&
          begunAt ⟨"", "a"⟩ q.2 == [1000000000, 61000000000]) = true := by
    decide +kernel
  obtain ⟨⟨s, tr⟩, made, known⟩ := (Option.any_eq_true _ _).1 played
  obtain ⟨⟨s', tr'⟩, made', known⟩ := (Option.any_eq_true _ _).1 known
  obtain ⟨calm, c, here, run⟩ :=
    Cluster.run_of_play_orgs ⟨rfl, rfl⟩ rfl (fun _ _ _ => fair_of_fairly) made
  obtain ⟨-, c', -, run'⟩ :=
    Cluster.run_of_play_orgs calm here (fun _ _ _ => fair_of_fairly) made'
  rw [here, Option.any_some] at known
  simp only [Bool.and_eq_true, beq_iff_eq, List.all_eq_true, Bool.not_eq_true'] at known
  obtain ⟨⟨⟨past, chains⟩, quiet⟩, begun⟩ := known
  have past : c.loop.pacer.Past (Key.identity ⟨"", "a"⟩) := by
    obtain ⟨n, count, past⟩ := (Option.any_eq_true _ _).1 past
    exact ⟨n, count, of_decide_eq_true past⟩
  have lasts : Lasts hasty .native ⟨"", "a"⟩ hasty.steadyWait.nanos tr' :=
    lasts_native (by decide) fun x hx => (quiet x hx).2
  have quiet (x) (hx : x ∈ tr') := (quiet x hx).1
  have settles := requeueing_settles Store.keyed_empty run ⟨"", "a"⟩
  have spaced := (settles.2.2 tr' c' run').2 _ rfl Organization.steady past quiet _ lasts
  refine ⟨tr, tr', c, c', Store.keyed_empty, run, run', Organization.steady, past, quiet, chains,
    begun, lasts, ?_⟩
  refine spaced 0 1 _ _ (by decide) (by rw [chains]) ?_ ?_ <;> rw [begun] <;> rfl

def doubled : List Cluster.Move × List Cluster.Move :=
  let work : Cluster.Move := .task (.work .deployment 0)
  let tick (n : Nat) : Cluster.Move := .tick n .epoch
  let fire (due rank : Nat) : Cluster.Move :=
    .task (.timer .deployment ⟨due, rank, ⟨"", "a.b"⟩⟩)
  ([.deployment (.create (.new "" "a.b")), .organization (.create (.new "" "a")),
      .task (.launch .deployment)] ++ List.replicate 8 work ++
      [tick 500000000, .task .takeRelated, .task .takeRelated] ++ List.replicate 7 work,
    [tick 1000000000, fire 1000000000 0] ++ List.replicate 7 work ++
      [tick 60500000000, fire 60500000000 1] ++ List.replicate 7 work ++
      [tick 61000000000, fire 61000000000 2, work])

/-- Two timers of one key are set at a time, and passes over it that all succeed begin half a second
apart with a steady wait of a minute. -/
theorem requeueing_doubled :
    ∃ (tr tr' : List (Nat × Deed DeploymentSpec)) (c c' : Station DeploymentSpec) (t u : Timer),
      Run Fair (start hasty .native Deployment.logic true .empty 0 0) tr c ∧
      c.loop.state = .running ∧ c.loop.timers = [t, u] ∧ t.rank ≠ u.rank ∧
      t.key = ⟨"", "a.b"⟩ ∧ u.key = ⟨"", "a.b"⟩ ∧
      c.now < t.due ∧ c.now < u.due ∧ c.loop.pacer.Past (Key.identity ⟨"", "a.b"⟩) ∧
      Run Fair c tr' c' ∧ c'.loop.state = .running ∧
      (∀ x ∈ tr', (x.2.adds ⟨"", "a.b"⟩ = 0 ∧
        x.2.forgets (Key.identity ⟨"", "a.b"⟩) = false) ∧ x.2.fails ⟨"", "a.b"⟩ = false) ∧
      begunAt ⟨"", "a.b"⟩ tr' = [1000000000, 60500000000, 61000000000] ∧
      61000000000 < 60500000000 + hasty.steadyWait.nanos := by
  have played : (Cluster.play Cluster.depDeed fairly doubled.1
      (Cluster.vacant DeploymentSpec hasty true, [])).any (fun p =>
        (Cluster.play Cluster.depDeed fairly doubled.2 (p.1, [])).any fun q =>
          (p.1.host? DeploymentSpec).any (fun c =>
            c.loop.running && c.now == 500000000 && c.loop.timers ==
              [⟨1000000000, 0, ⟨"", "a.b"⟩⟩, ⟨60500000000, 1, ⟨"", "a.b"⟩⟩] &&
            (c.loop.pacer.count? (Key.identity ⟨"", "a.b"⟩)).any (c.loop.pacer.threshold < ·)) &&
          (q.1.host? DeploymentSpec).any (·.loop.running) &&
          q.2.all (fun x => x.2.adds ⟨"", "a.b"⟩ == 0 && !x.2.forgets (Key.identity ⟨"", "a.b"⟩) &&
            !x.2.fails ⟨"", "a.b"⟩) &&
          begunAt ⟨"", "a.b"⟩ q.2 == [1000000000, 60500000000, 61000000000]) = true := by
    decide +kernel
  obtain ⟨⟨s, tr⟩, made, known⟩ := (Option.any_eq_true _ _).1 played
  obtain ⟨⟨s', tr'⟩, made', known⟩ := (Option.any_eq_true _ _).1 known
  obtain ⟨calm, c, here, run⟩ :=
    Cluster.run_of_play_deps ⟨rfl, rfl⟩ rfl (fun _ _ _ => fair_of_fairly) made
  obtain ⟨-, c', here', run'⟩ :=
    Cluster.run_of_play_deps calm here (fun _ _ _ => fair_of_fairly) made'
  rw [here, here', Option.any_some, Option.any_some] at known
  simp only [Bool.and_eq_true, beq_iff_eq, List.all_eq_true, Bool.not_eq_true'] at known
  obtain ⟨⟨⟨⟨⟨⟨running, now⟩, timers⟩, past⟩, running'⟩, quiet⟩, begun⟩ := known
  obtain ⟨n, count, past⟩ := (Option.any_eq_true _ _).1 past
  refine ⟨tr, tr', c, c', _, _, run, Loop.state_of_running running, timers, by decide, rfl, rfl,
    ?_, ?_, ⟨n, count, of_decide_eq_true past⟩, run', Loop.state_of_running running', quiet, begun,
    by decide⟩
  · rw [now]
    decide
  · rw [now]
    decide

end Station
end Tenancy
