import Tenancy.Proofs.Reconcile.Deadline

/-! What a pass leaves behind in a store that nobody else writes. It writes one object, and of that
the status and its own finalizer only, whatever the hooks did to the copy that they were given: an
update writes the object as it was fetched but for the finalizer, and what is written afterwards
is the status. -/

namespace Tenancy

variable {S : Type}

namespace Program

variable {Q : Type} {Answer : Q → Type} {α : Type} {p rest : Program Q Answer α}

theorem Leads.asked {t u : Dialogue Answer} {q : Q} {r : Answer q}
    (l : Leads p (t ++ ⟨q, r⟩ :: u) rest) : ∃ next, Leads p t (.ask q next) := by
  induction t generalizing p with
  | nil =>
    cases l
    exact ⟨_, .here _⟩
  | cons e t ih =>
    cases l with
    | told l =>
      obtain ⟨next, l⟩ := ih l
      exact ⟨next, .told l⟩

theorem finishes {sort : (q : Q) → Answer q → Prop} (h : ∀ q, ∃ r, sort q r)
    (p : Program Q Answer α) : ∃ t a, Leads p t (.done a) ∧ ∀ said ∈ t, sort said.1 said.2 := by
  induction p with
  | done a => exact ⟨[], a, .here _, List.forall_mem_nil _⟩
  | ask q next ih =>
    obtain ⟨r, hr⟩ := h q
    obtain ⟨t, a, l, ht⟩ := ih r
    exact ⟨⟨q, r⟩ :: t, a, .told l, List.forall_mem_cons.2 ⟨hr, ht⟩⟩

end Program

def Resource.withFinalizers (o : Resource S) (finalizers : List String) : Resource S :=
  { o with metadata := { o.metadata with finalizers } }

theorem Resource.withFinalizer_of_has {o : Resource S} {f : String}
    (has : o.metadata.hasFinalizer f = true) : o.withFinalizer f = o := by
  unfold withFinalizer Metadata.addFinalizer
  rw [if_pos has]

theorem Resource.withFinalizer_of_lacks {o : Resource S} {f : String}
    (lacks : o.metadata.hasFinalizer f = false) :
    o.withFinalizer f = o.withFinalizers (o.metadata.finalizers ++ [f]) := by
  unfold withFinalizer Metadata.addFinalizer
  rw [if_neg (Bool.eq_false_iff.1 lacks)]
  rfl

/-- The second is the first with these finalizers, another status and another version. -/
structure Resource.Refined (o d : Resource S) (finalizers : List String) : Prop where
  typeMeta : d.typeMeta = o.typeMeta
  spec : d.spec = o.spec
  metadata : d.metadata = { o.metadata with resourceVersion := d.version, finalizers }

namespace Resource.Refined

variable {o d : Resource S} {fs gs : List String}

theorem rfl : o.Refined o o.metadata.finalizers := ⟨Eq.refl _, Eq.refl _, Eq.refl _⟩

theorem withStatus (h : o.Refined d fs) (s : Store S) (status : Status) :
    o.Refined (s.draw (d.withStatus status)) fs := by
  refine ⟨h.typeMeta, h.spec, ?_⟩
  show { d.metadata with resourceVersion := s.version + 1 } = _
  rw [h.metadata]
  exact Eq.refl _

theorem update [ResourceKind S] [ReflBEq S] (h : o.Refined d fs) (s : Store S) :
    o.Refined (s.draw (Store.revise d (o.withFinalizers gs))) gs := by
  refine ⟨Eq.refl _, Eq.refl _, ?_⟩
  have uid : d.metadata.uid = o.metadata.uid := by rw [h.metadata]
  have mark : d.metadata.deletedAt = o.metadata.deletedAt := by rw [h.metadata]
  have generation : d.metadata.generation = o.metadata.generation := by rw [h.metadata]
  simp only [Store.draw, Store.revise, withFinalizers, version, uid, mark, generation, h.spec,
    BEq.refl, if_true]

end Resource.Refined

namespace Pass

open Program

variable [ResourceKind S]

inductive Undisturbed : History S → Talk S → History S → Prop
  | still (h) : Undisturbed h [] h
  | told {h h₁ h₂ q r t} (answered : Site.Answered h q r h₁) (rest : Undisturbed h₁ t h₂) :
    Undisturbed h (⟨q, r⟩ :: t) h₂

variable {logic : Logic S} {wait : Span} {key : Key} {o x : Resource S} {t : Talk S}
  {h h' : History S} {q : Request S} {r : q.Answer} {rest : Pass S Outcome}

theorem Undisturbed.alone (told : Undisturbed h t h') (key : Key) : Alone key h t h' := by
  induction told with
  | still h => exact .still h
  | told answered _ ih => exact .told answered ih

inductive Touches (s : Store S) (k : Key) :
    Request S → Option (Resource S) → Option (Resource S) → Prop
  | kept {a d} : Touches s k a d d
  | updated {u d} (key : u.key = k) :
    Touches s k (.update u) (some d) (some (s.draw (Store.revise d u)))
  | released {u d} (key : u.key = k) (bare : u.metadata.finalizers = []) :
    Touches s k (.update u) (some d) none
  | statusUpdated {u d} (key : u.key = k) :
    Touches s k (.updateStatus u) (some d) (some (s.draw (d.withStatus u.status)))

theorem touches (answered : Site.Answered h q r h') (keyed : h.store.Keyed) (k : Key) :
    Touches h.store k q (h.store.get? k) (h'.store.get? k) := by
  cases answered with
  | get | clock | logic => exact .kept
  | update u =>
    have touch := (h.store.effect_write (.update u)).touch keyed k
    show Touches h.store k _ _ ((h.store.write (.update u)).store.get? k)
    generalize h.store.get? k = before at touch ⊢
    generalize (h.store.write (.update u)).store.get? k = after at touch ⊢
    generalize (h.store.write (.update u)).change = c at touch
    cases touch with
    | kept => exact .kept
    | updated key => exact .updated key
    | released key _ _ bare => exact .released key bare
  | updateStatus u =>
    have touch := (h.store.effect_write (.updateStatus u)).touch keyed k
    show Touches h.store k _ _ ((h.store.write (.updateStatus u)).store.get? k)
    generalize h.store.get? k = before at touch ⊢
    generalize (h.store.write (.updateStatus u)).store.get? k = after at touch ⊢
    generalize (h.store.write (.updateStatus u)).change = c at touch
    cases touch with
    | kept => exact .kept
    | statusUpdated key => exact .statusUpdated key

/-! ### What a pass may write -/

theorem about_of_run (steady : logic.Steady) (l : Leads (run logic .inStore wait key) t rest)
    (apt : ∀ said ∈ t, said.1.Apt said.2) : ∀ said ∈ t, said.1.About key := by
  rintro ⟨q, r⟩ hs
  cases q with
  | get | clock | logic => trivial
  | update u =>
    obtain ⟨t₁, t₂, rfl⟩ := List.append_of_mem hs
    obtain ⟨next, l⟩ := l.asked
    obtain ⟨o, t', rfl, fetched⟩ := update_of_run l
    have key : o.key = key := apt ⟨.get key, .ok o⟩ (by simp) o rfl
    rcases fetched with ⟨-, rfl⟩ | ⟨-, -, rfl, -⟩
    · exact (o.key_withFinalizer _).trans key
    · exact key
  | updateStatus x =>
    -- the pass is led to an end by refusals, since the ways of a pass are those to its end
    have refusal (q : Request S) : ∃ r, q.Apt r := by
      cases q with
      | get | update => exact ⟨.error (.backend ""), nofun⟩
      | updateStatus => exact ⟨.error (.backend ""), trivial⟩
      | clock => exact ⟨.epoch, trivial⟩
      | logic a =>
        cases a with
        | organizations => exact ⟨.error (.backend ""), trivial⟩
        | nextDelay => exact ⟨⟨0⟩, trivial⟩
        | forget | sleep | entered => exact ⟨(), trivial⟩
    obtain ⟨u, a, l', apt'⟩ := finishes refusal rest
    have written : (x, r) ∈ statusWrites (t ++ u) :=
      List.mem_filterMap.2 ⟨_, List.mem_append_left _ hs, rfl⟩
    refine key_of_statusWrite steady (l.trans l') ?_ written
    exact fun said hs => (List.mem_append.1 hs).elim (apt said) (apt' said)

def Cleaned (logic : Logic S) (key : Key) (o : Resource S) (t : Talk S) : Prop :=
  ∃ u, ⟨.get key, .ok o⟩ :: u <+: t ∧ Leads (inquire (logic.cleanUp o)) u (.done (.ok true))

inductive Rewrites (logic : Logic S) (key : Key) (o : Resource S) (t : Talk S) : Resource S → Prop
  | guards (unmarked : o.wasDeleted = false) :
    Rewrites logic key o t (o.withFinalizer (ResourceKind.finalizer S))
  | givesUp (marked : o.wasDeleted = true) (own : o.hasOwnFinalizer = true)
    (cleaned : Cleaned logic key o t) :
    Rewrites logic key o t (o.withoutFinalizer (ResourceKind.finalizer S))

theorem rewrites_of_run (l : Leads (run logic .inStore wait key) t rest)
    (fetched : ∀ d, ⟨.get key, .ok d⟩ ∈ t.head? → d = o) {r : (Request.update x).Answer}
    (hs : ⟨.update x, r⟩ ∈ t) : Rewrites logic key o t x := by
  obtain ⟨t₁, t₂, rfl⟩ := List.append_of_mem hs
  obtain ⟨next, l⟩ := l.asked
  obtain ⟨d, t', rfl, way⟩ := update_of_run l
  obtain rfl : d = o := fetched d rfl
  rcases way with ⟨unmarked, rfl⟩ | ⟨marked, own, rfl, clean⟩
  · exact .guards unmarked
  · exact .givesUp marked own ⟨t', List.prefix_append .., clean⟩

/-! ### What becomes of the object -/

inductive Left (logic : Logic S) (key : Key) (o : Resource S) (t : Talk S) :
    Option (Resource S) → Prop
  | kept {d} (refined : o.Refined d o.metadata.finalizers) : Left logic key o t (some d)
  | guarded {d} (unmarked : o.wasDeleted = false) (missing : o.hasOwnFinalizer = false)
    (refined : o.Refined d (o.metadata.finalizers ++ [ResourceKind.finalizer S])) :
    Left logic key o t (some d)
  | released {d} (marked : o.wasDeleted = true) (own : o.hasOwnFinalizer = true)
    (cleaned : Cleaned logic key o t)
    (refined : o.Refined d (o.metadata.finalizers.filter (· != ResourceKind.finalizer S))) :
    Left logic key o t (some d)
  | gone (marked : o.wasDeleted = true) (own : o.hasOwnFinalizer = true)
    (cleaned : Cleaned logic key o t)
    (last : ∀ f ∈ o.metadata.finalizers, f = ResourceKind.finalizer S) : Left logic key o t none

theorem Left.update [ReflBEq S] {d : Resource S} {fs : List String} (refined : o.Refined d fs)
    (rewrites : Rewrites logic key o t x) (s : Store S) :
    Left logic key o t (some (s.draw (Store.revise d x))) := by
  cases rewrites with
  | guards unmarked =>
    cases own : o.hasOwnFinalizer with
    | true =>
      rw [Resource.withFinalizer_of_has own]
      exact .kept (refined.update s)
    | false =>
      rw [Resource.withFinalizer_of_lacks own]
      exact .guarded unmarked own (refined.update s)
  | givesUp marked own cleaned => exact .released marked own cleaned (refined.update s)

theorem Left.gone_of_bare (rewrites : Rewrites logic key o t x)
    (bare : x.metadata.finalizers = []) :
    Left logic key o t none := by
  cases rewrites with
  | guards =>
    have guarded := o.mem_withFinalizer (ResourceKind.finalizer S)
    rw [bare] at guarded
    cases guarded
  | givesUp marked own cleaned =>
    refine .gone marked own cleaned fun f hf => ?_
    simpa using List.filter_eq_nil_iff.1 bare f hf

theorem Left.withStatus {d : Resource S} (left : Left logic key o t (some d)) (s : Store S)
    (status : Status) : Left logic key o t (some (s.draw (d.withStatus status))) := by
  cases left with
  | kept refined => exact .kept (refined.withStatus s status)
  | guarded unmarked missing refined =>
    exact .guarded unmarked missing (refined.withStatus s status)
  | released marked own cleaned refined =>
    exact .released marked own cleaned (refined.withStatus s status)

theorem Left.refined {d : Resource S} (left : Left logic key o t (some d)) :
    ∃ fs, o.Refined d fs := by
  cases left <;> exact ⟨_, ‹_›⟩

theorem Left.answered [ReflBEq S] (left : Left logic key o t (h.store.get? key))
    (answered : Site.Answered h q r h') (keyed : h.store.Keyed)
    (rewrites : ∀ x, q = .update x → Rewrites logic key o t x) :
    Left logic key o t (h'.store.get? key) := by
  have touched := touches answered keyed key
  generalize h.store.get? key = before at left touched
  generalize h'.store.get? key = after at touched ⊢
  cases touched with
  | kept => exact left
  | updated =>
    obtain ⟨fs, refined⟩ := left.refined
    exact .update refined (rewrites _ rfl) _
  | released _ bare => exact .gone_of_bare (rewrites _ rfl) bare
  | statusUpdated => exact left.withStatus _ _

theorem Undisturbed.left [ReflBEq S] {u : Talk S} (told : Undisturbed h u h')
    (keyed : h.store.Keyed) (left : Left logic key o t (h.store.get? key))
    (rewrites : ∀ x r, ⟨.update x, r⟩ ∈ u → Rewrites logic key o t x) :
    Left logic key o t (h'.store.get? key) := by
  induction told with
  | still => exact left
  | told answered _ ih =>
    refine ih (answered.keyed keyed) (left.answered answered keyed ?_) fun x r hs =>
      rewrites x r (List.mem_cons_of_mem _ hs)
    rintro x rfl
    exact rewrites x _ List.mem_cons_self

theorem get?_of_about (answered : Site.Answered h q r h') (keyed : h.store.Keyed)
    (about : q.About key) {k : Key} (hk : k ≠ key ∨ h.store.get? k = none) :
    h'.store.get? k = h.store.get? k := by
  have touched := touches answered keyed k
  generalize h.store.get? k = before at hk touched ⊢
  generalize h'.store.get? k = after at touched ⊢
  cases touched with
  | kept => rfl
  | updated same | released same | statusUpdated same =>
    rcases hk with other | absent
    · exact absurd (same.symm.trans about) other
    · cases absent

theorem Undisturbed.get?_of_about (told : Undisturbed h t h') (keyed : h.store.Keyed)
    (about : ∀ said ∈ t, said.1.About key) {k : Key} (hk : k ≠ key ∨ h.store.get? k = none) :
    h'.store.get? k = h.store.get? k := by
  induction told with
  | still => rfl
  | told answered _ ih =>
    have same := Pass.get?_of_about answered keyed (about _ List.mem_cons_self) hk
    have rest := ih (answered.keyed keyed) (fun said hs => about said (List.mem_cons_of_mem _ hs))
      (hk.imp_right same.trans)
    exact rest.trans same

/-- A pass that nobody disturbs, done or given up, leaves everything under other keys as it was, and
of its own object all but the status, the version and its finalizer. -/
theorem footprint [ReflBEq S] (steady : logic.Steady) (keyed : h.store.Keyed)
    (told : Undisturbed h t h') (l : Leads (run logic .inStore wait key) t rest) :
    (∀ k, k ≠ key → h'.store.get? k = h.store.get? k) ∧
    (h.store.get? key = none → h'.store.get? key = none) ∧
    ∀ o, h.store.get? key = some o → Left logic key o t (h'.store.get? key) := by
  have about := about_of_run steady l ((told.alone key).apt keyed)
  refine ⟨fun k hk => told.get?_of_about keyed about (.inl hk), fun absent => ?_,
    fun o stored => ?_⟩
  · exact (told.get?_of_about keyed about (.inr absent)).trans absent
  · refine told.left keyed (stored ▸ .kept .rfl) fun x r hs => rewrites_of_run l (fun d hd => ?_) hs
    -- the pass began with the object as it was stored
    cases told with
    | still => cases hd
    | told answered =>
      cases hd
      have got := answered.get_eq
      exact Option.some.inj ((Store.get_eq_ok.1 got.symm).symm.trans stored)

def meddlesome : Logic OrganizationSpec where
  prepare o := .done ({ o with
    typeMeta := ⟨"", ""⟩
    spec := ⟨none, [], none⟩
    metadata := { o.metadata with finalizers := [], annotations := ∅, deletedAt := some .epoch } },
    .ok ())
  apply o := .done (o.setObserved (.down "spoilt"), .error (.store "spoilt"))
  cleanUp _ := .done (.ok true)
  release _ := .done ()
  delay _ := .done ⟨0⟩

theorem meddlesome_steady : meddlesome.Steady := by
  refine ⟨fun o t o' r l => ?_, fun o t o' r l => ?_⟩ <;> cases l <;> exact .rfl

def shared : Organization :=
  { (Resource.new "a" "b" : Organization) with
    metadata := { Metadata.new "a" "b" with finalizers := ["x", "y", "x"] }
    spec := ⟨some "c", [⟨"ipam", "pool"⟩], none⟩ }

theorem footprint_meddlesome :
    ∃ (h h' : History OrganizationSpec) (t : Talk OrganizationSpec) (o d : Organization),
      h.store.get? ⟨"a", "b"⟩ = some o ∧ Undisturbed h t h' ∧
      Leads (run meddlesome .inStore ⟨0⟩ ⟨"a", "b"⟩) t (.done (.error (.store "spoilt"))) ∧
      h'.store.get? ⟨"a", "b"⟩ = some d ∧ d.status.observed = some (.down "spoilt") ∧
      Left meddlesome ⟨"a", "b"⟩ o t (some d) ∧
      d.metadata.finalizers = ["x", "y", "x", "organization.org.nddr.yndd.io"] := by
  obtain ⟨t, h', told, l, stored⟩ : ∃ t h',
      Undisturbed (.after [.create ⟨1⟩ shared]) t h' ∧
      Leads (run meddlesome .inStore ⟨0⟩ ⟨"a", "b"⟩) t (.done (.error (.store "spoilt"))) ∧
      ∃ d, h'.store.get? ⟨"a", "b"⟩ = some d ∧ d.status.observed = some (.down "spoilt") ∧
        d.metadata.finalizers = ["x", "y", "x", "organization.org.nddr.yndd.io"] :=
    ⟨_, _, .told (.get _) (.told (.update _) (.told (.clock .epoch) (.told (.updateStatus _)
      (.still _)))), by exact .told (.told (.told (.told (.here _)))), _, rfl, rfl, rfl⟩
  obtain ⟨d, stored, observed, finalizers⟩ := stored
  obtain ⟨-, -, left⟩ := footprint meddlesome_steady (History.keyed_after _) told l
  exact ⟨_, h', t, _, d, rfl, told, l, stored, observed, stored ▸ left _ rfl, finalizers⟩

end Pass
end Tenancy
