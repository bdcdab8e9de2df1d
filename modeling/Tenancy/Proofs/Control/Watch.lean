import Tenancy.Proofs.Control.Chains
import Tenancy.Proofs.Equality
import Tenancy.Proofs.Fanout
import Tenancy.Proofs.Reconcile.Dialogue
import Tenancy.Proofs.Store.Generation

/-! What the reader of the own feed gets to know. A change that is not to be passed over waits in
the feed until it is taken in and its key is queued; it is lost only when the feed is full of
changes that are younger, none of which was taken either. -/

namespace Tenancy

namespace Store

variable {S : Type} [ResourceKind S] {s t : Store S} {k : Key} {w : Write S}

def changesBy (s : Store S) : List (Write S) → List (Change S)
  | [] => []
  | w :: ws => (s.write w).change.toList ++ (s.write w).store.changesBy ws

theorem changesBy_concat (s : Store S) (ws : List (Write S)) (w : Write S) :
    s.changesBy (ws ++ [w]) = s.changesBy ws ++ ((s.writeAll ws).write w).change.toList := by
  induction ws generalizing s with
  | nil => exact List.append_nil _
  | cons v ws ih => simp only [List.cons_append, changesBy, writeAll, ih, List.append_assoc]

/-- The object under the key has come or gone, or has another specification, or was marked. -/
def News (k : Key) (s t : Store S) : Prop :=
  s.get? k = none ∧ (t.get? k).isSome ∨ (s.get? k).isSome ∧ t.get? k = none ∨
    ∃ o n, s.get? k = some o ∧ t.get? k = some n ∧
      ((o.spec == n.spec) = false ∨ o.wasDeleted ≠ n.wasDeleted)

theorem News.not_like (news : News k s t) : ¬Option.Rel Resource.Like (s.get? k) (t.get? k) := by
  intro like
  rcases news with ⟨absent, here⟩ | ⟨here, absent⟩ | ⟨o, n, ho, hn, differs⟩
  · rw [absent] at like
    generalize t.get? k = after at like here
    cases like
    cases here
  · rw [absent] at like
    generalize s.get? k = before at like here
    cases like
    cases here
  · rw [ho, hn] at like
    cases like with
    | some like =>
      rcases differs with spec | mark
      · exact absurd like.2 (by simp [spec])
      · exact mark like.1

theorem not_news [EquivBEq S] (k : Key) (s : Store S) : ¬News k s s :=
  fun news => news.not_like (Resource.Like.option_refl _)

theorem News.change [EquivBEq S] (news : News k s (s.write w).store) (keyed : s.Keyed) :
    ∃ x, (s.write w).change = some x ∧ x.key = k ∧ x.generationChanged = true := by
  by_contra quiet
  refine news.not_like (like_of_quiet keyed fun d hd key => ?_)
  rw [← Bool.not_eq_true]
  exact fun loud => quiet ⟨d, hd, key, loud⟩

end Store

namespace Feed

variable {S : Type} {f : Feed S}

theorem publishAll (active : f.active = true) (byHand : f.byHand = false)
    (within : f.backlog.length ≤ capacity) (cs : List (Change S)) :
    (cs.foldl publish f).active = true ∧ (cs.foldl publish f).byHand = false ∧
      (cs.foldl publish f).backlog =
        (f.backlog ++ cs).drop ((f.backlog ++ cs).length - capacity) := by
  induction cs using List.reverseRecOn with
  | nil =>
    rw [List.append_nil, Nat.sub_eq_zero_of_le within]
    exact ⟨active, byHand, rfl⟩
  | append_singleton cs c ih =>
    obtain ⟨active, byHand, backlog⟩ := ih
    rw [List.foldl_append, ← List.append_assoc]
    refine ⟨(active_publish _ c).trans active, (byHand_publish _ c).trans byHand, ?_⟩
    generalize f.backlog ++ cs = all at backlog
    have kept : all.length - capacity ≤ all.length := Nat.sub_le _ _
    have lost : all.length - capacity + ((all.drop (all.length - capacity)).length + 1 - capacity) =
        (all ++ [c]).length - capacity := by
      simp only [List.length_drop, List.length_append, List.length_singleton]
      omega
    rw [List.foldl_cons, List.foldl_nil, backlog_publish_eq active byHand, backlog, ← lost,
      ← List.drop_drop, List.drop_append_of_le_length kept]

end Feed

def Deed.write? {S : Type} : Deed S → Option (Write S)
  | client w => some w
  | asked _ q => q.write?
  | rest | added _ | fired _ | began _ | ended _ _ => none

namespace Station

variable {S : Type} {c c' : Station S}

def writes (tr : List (Nat × Deed S)) : List (Write S) := tr.filterMap (·.2.write?)

theorem writes_concat (tr : List (Nat × Deed S)) (x : Nat × Deed S) :
    writes (tr ++ [x]) = writes tr ++ x.2.write?.toList := by
  unfold writes
  rw [List.filterMap_append]
  cases written : x.2.write? <;> simp [written]

def Listens (c : Station S) : Prop := c.loop.state = .launching ∨ c.loop.state = .running

variable [ResourceKind S] {d : Deed S}

/-- What a step means for the feed of a loop that was not stopped. -/
inductive Hears (c : Station S) (d : Deed S) (c' : Station S) : Prop
  | idle (write : d.write? = none) (store : c'.store = c.store)
    (backlog : c'.loop.own.backlog = c.loop.own.backlog)
    (arrived : c'.loop.arrived = c.loop.arrived)
  | wrote (w : Write S) (write : d.write? = some w) (store : c'.store = (c.store.write w).store)
    (own : c'.loop.own = (c.store.write w).change.elim c.loop.own c.loop.own.publish)
    (arrived : c'.loop.arrived = c.loop.arrived)
  | took (free : c.loop.arrived = []) (deed : d = .rest) (store : c'.store = c.store)
    (backlog : c'.loop.own.backlog = c.loop.own.backlog.tail)
    (arrived : c'.loop.arrived = c.loop.news)
  | queued {k ks} (next : c.loop.arrived = k :: ks) (deed : d = .added [k])
    (store : c'.store = c.store) (backlog : c'.loop.own.backlog = c.loop.own.backlog)
    (arrived : c'.loop.arrived = ks)

theorem Step.hears (step : Step c d c') (listens : c'.Listens) : c.Listens ∧ Hears c d c' := by
  cases step with
  | client w => exact ⟨listens, .wrote w rfl rfl rfl rfl⟩
  | takeOwn free =>
    rw [Loop.takeOwn_eq _ free] at listens ⊢
    exact ⟨listens, .took free rfl rfl rfl rfl⟩
  | arrive next =>
    rw [Loop.enqueueArrived_eq _ next] at listens ⊢
    exact ⟨listens, .queued next rfl rfl rfl rfl⟩
  | launch state =>
    rw [Loop.launch_eq]
    exact ⟨.inl state, .idle rfl rfl rfl rfl⟩
  | halt =>
    unfold Loop.halt at listens ⊢
    split at listens
    · rcases listens with state | state <;> cases state
    · exact ⟨listens, .idle rfl rfl rfl rfl⟩
    · exact ⟨listens, .idle rfl rfl rfl rfl⟩
  | look at_ comes =>
    rw [looked_eq] at listens ⊢
    refine ⟨listens, .idle ?_ rfl rfl rfl⟩
    unfold Lobby.Looked.deed
    split <;> rfl
  | ask at_ answered =>
    cases answered with
    | update o => exact ⟨listens, .wrote (.update o) rfl rfl rfl rfl⟩
    | updateStatus o => exact ⟨listens, .wrote (.updateStatus o) rfl rfl rfl rfl⟩
    | get | clock | organizations | nextDelay | forget | sleep | entered =>
      exact ⟨listens, .idle rfl rfl rfl rfl⟩
  | elapse | concern | fire | wake | expire | finish => exact ⟨listens, .idle rfl rfl rfl rfl⟩

/-! ### Runs -/

variable {allowed : Station S → Deed S → Station S → Prop} {A B : List (Nat × Deed S)}
  {b b' : Station S} {k : Key} {x : Change S}

/-- At some time since, nothing but changes made since was waiting, as many as the feed keeps. -/
def Overrun (allowed : Station S → Deed S → Station S → Prop) (b : Station S)
    (B : List (Nat × Deed S)) : Prop :=
  ∃ B₁ B₂ e, B = B₁ ++ B₂ ∧ Run allowed b B₁ e ∧
    e.loop.own.backlog = b.store.changesBy (writes B₁) ∧ e.loop.own.backlog.length = Feed.capacity

/-- What has become of a change that was the youngest in the feed. -/
inductive Fate (allowed : Station S → Deed S → Station S → Prop) (b : Station S) (x : Change S)
    (B : List (Nat × Deed S)) (c : Station S) : Prop
  | waits (old : List (Change S))
    (backlog : c.loop.own.backlog = old ++ x :: b.store.changesBy (writes B))
  | taken (arrived : x.key ∈ c.loop.arrived)
  | queued {y} (mem : y ∈ B) (adds : y.2.adds x.key ≠ 0)
  | overrun (overrun : Overrun allowed b B)

theorem Overrun.append (h : Overrun allowed b A) (B : List (Nat × Deed S)) :
    Overrun allowed b (A ++ B) := by
  obtain ⟨A₁, A₂, e, rfl, run, backlog, full⟩ := h
  exact ⟨A₁, A₂ ++ B, e, List.append_assoc .., run, backlog, full⟩

theorem Hears.within (hears : Hears c d c') (tidy : c.Tidy) (listens : c.Listens)
    (within : c.loop.own.backlog.length ≤ Feed.capacity) :
    c'.loop.own.backlog.length ≤ Feed.capacity := by
  obtain ⟨active, byHand, -⟩ := tidy.listening listens
  cases hears with
  | idle _ _ backlog | queued _ _ _ backlog => rwa [backlog]
  | took _ _ _ backlog =>
    rw [backlog, List.length_tail]
    omega
  | wrote w _ _ own =>
    rw [own]
    cases (c.store.write w).change with
    | none => exact within
    | some z =>
      rw [Option.elim, Feed.backlog_publish_eq active byHand]
      simp only [List.length_drop, List.length_append, List.length_singleton]
      omega

theorem Run.listens (run : Run allowed c A c') (listens : c'.Listens) : c.Listens := by
  induction run with
  | here => exact listens
  | step _ step _ ih => exact ih (step.hears listens).1

theorem Run.within (run : Run allowed c A c') (tidy : c.Tidy) (listens : c'.Listens)
    (within : c.loop.own.backlog.length ≤ Feed.capacity) :
    c'.loop.own.backlog.length ≤ Feed.capacity := by
  induction run with
  | here => exact within
  | step run step _ ih =>
    obtain ⟨before, hears⟩ := step.hears listens
    exact hears.within (run.tidy tidy) before (ih before)

theorem Run.store (run : Run allowed c A c') (listens : c'.Listens) :
    c'.store = c.store.writeAll (writes A) := by
  induction run with
  | here => rfl
  | @step tr b d c' run step _ ih =>
    obtain ⟨before, hears⟩ := step.hears listens
    rw [writes_concat]
    cases hears with
    | idle write store =>
      rw [store, ih before, write]
      simp
    | took _ deed store | queued _ deed store =>
      rw [store, ih before, deed]
      simp [Deed.write?]
    | wrote w write store =>
      rw [store, ih before, write, Option.toList_some, Store.writeAll_concat]

theorem Fate.push (run : Run allowed b (B ++ A) c') {old : List (Change S)} {z : Change S}
    (within : (old ++ x :: b.store.changesBy (writes B)).length ≤ Feed.capacity)
    (changes : b.store.changesBy (writes (B ++ A)) = b.store.changesBy (writes B) ++ [z])
    (backlog : c'.loop.own.backlog = (old ++ x :: b.store.changesBy (writes (B ++ A))).drop
      ((old ++ x :: b.store.changesBy (writes B)).length + 1 - Feed.capacity)) :
    Fate allowed b x (B ++ A) c' := by
  generalize hn : (old ++ x :: b.store.changesBy (writes B)).length + 1 - Feed.capacity = n
    at backlog
  by_cases room : n ≤ old.length
  · rw [List.drop_append_of_le_length room] at backlog
    exact .waits _ backlog
  · -- the change is the oldest one
    obtain rfl : old = [] := List.eq_nil_of_length_eq_zero (by omega)
    obtain rfl : n = 1 := by
      rw [List.length_nil] at room
      omega
    have backlog : c'.loop.own.backlog = b.store.changesBy (writes (B ++ A)) := backlog
    refine .overrun ⟨B ++ A, [], c', (List.append_nil _).symm, run, backlog, ?_⟩
    simp only [List.nil_append, List.length_cons] at hn within
    rw [backlog, changes, List.length_append, List.length_singleton]
    omega

theorem Hears.taken (hears : Hears c d c') (arrived : k ∈ c.loop.arrived) :
    k ∈ c'.loop.arrived ∨ d.adds k ≠ 0 := by
  cases hears with
  | idle _ _ _ same | wrote _ _ _ _ same =>
    rw [same]
    exact .inl arrived
  | took free =>
    rw [free] at arrived
    cases arrived
  | queued next deed _ _ same =>
    rw [next, List.mem_cons] at arrived
    rcases arrived with rfl | arrived
    · rw [deed, Deed.adds, List.count_singleton_self]
      exact .inr Nat.one_ne_zero
    · rw [same]
      exact .inl arrived

theorem Run.fate (run : Run allowed b B c) (tidy : b.Tidy) (listens : c.Listens)
    (within : b.loop.own.backlog.length ≤ Feed.capacity) (loud : x.generationChanged = true)
    {old : List (Change S)} (youngest : b.loop.own.backlog = old ++ [x]) :
    Fate allowed b x B c := by
  induction run with
  | here => exact .waits old youngest
  | @step B c d c' run step ok ih =>
    obtain ⟨before, hears⟩ := step.hears listens
    cases ih before with
    | taken arrived =>
      rcases hears.taken arrived with arrived | adds
      · exact .taken arrived
      · exact .queued (List.mem_append_right _ (List.mem_singleton_self _)) adds
    | queued mem adds => exact .queued (List.mem_append_left _ mem) adds
    | overrun overrun => exact .overrun (overrun.append _)
    | waits old backlog =>
      have same (write : d.write? = none) : writes (B ++ [(c.now, d)]) = writes B := by
        rw [writes_concat, write]
        exact List.append_nil _
      cases hears with
      | idle write _ kept =>
        refine .waits old ?_
        rw [kept, backlog, same write]
      | queued _ deed _ kept =>
        refine .waits old ?_
        rw [kept, backlog, same (deed ▸ rfl)]
      | took _ deed _ rest arrived =>
        cases old with
        | nil =>
          have news : c.loop.news = x.objects.map (·.key) := by
            rw [Loop.news, backlog]
            exact if_pos loud
          refine .taken ?_
          rw [arrived, news]
          exact List.mem_map.2 ⟨x.latest, x.latest_mem_objects, rfl⟩
        | cons o os =>
          refine .waits os ?_
          rw [rest, same (deed ▸ rfl), backlog]
          rfl
      | wrote w write _ own =>
        have changes : b.store.changesBy (writes (B ++ [(c.now, d)])) =
            b.store.changesBy (writes B) ++ (c.store.write w).change.toList := by
          rw [writes_concat, write, Option.toList_some, Store.changesBy_concat, ← run.store before]
        cases made : (c.store.write w).change with
        | none =>
          rw [made, Option.toList_none, List.append_nil] at changes
          refine .waits old ?_
          rw [own, made, changes]
          exact backlog
        | some z =>
          rw [made, Option.toList_some] at changes
          obtain ⟨active, byHand, -⟩ := (run.tidy tidy).listening before
          have within := run.within tidy before within
          rw [backlog] at within
          refine Fate.push (run.step step ok) within changes ?_
          rw [own, made, Option.elim, Feed.backlog_publish_eq active byHand, backlog, changes,
            List.append_assoc, List.cons_append]

theorem Hears.youngest [EquivBEq S] (hears : Hears c d c') (tidy : c.Tidy) (listens : c.Listens)
    (news : Store.News k c.store c'.store) : ∃ x old, c'.loop.own.backlog = old ++ [x] ∧
      x.key = k ∧ x.generationChanged = true := by
  cases hears with
  | idle _ store | took _ _ store | queued _ _ store =>
    rw [store] at news
    exact absurd news (Store.not_news k c.store)
  | wrote w _ store own =>
    rw [store] at news
    obtain ⟨x, made, key, loud⟩ := news.change tidy.keyed
    obtain ⟨active, byHand, -⟩ := tidy.listening listens
    refine ⟨x, c.loop.own.backlog.drop (c.loop.own.backlog.length + 1 - Feed.capacity), ?_, key,
      loud⟩
    rw [own, made, Option.elim, Feed.backlog_publish_eq active byHand]
    refine List.drop_append_of_le_length ?_
    have room : 0 < Feed.capacity := by decide
    omega

/-- While a loop runs and has read and handled all of its feed, the key of every object that was
created, marked or removed, or got another specification, was queued since, unless the feed was full
of younger changes at some time. -/
theorem news_queued [EquivBEq S] {settings : Settings} {timing : Timing} {logic : Logic S}
    {withRelated : Bool} {store : Store S} {now rank : Nat} (keyed : store.Keyed)
    (since : Run allowed (start settings timing logic withRelated store now rank) A b)
    (step : Step b d b') (news : Store.News k b.store b'.store) (later : Run allowed b' B c)
    (running : c.loop.state = .running) (drained : c.loop.own.backlog = [])
    (handled : c.loop.arrived = []) :
    (∃ y ∈ B, y.2.adds k ≠ 0) ∨
      ∃ B₁ B₂ e, B = B₁ ++ B₂ ∧ Run allowed b' B₁ e ∧
        e.loop.own.backlog = b'.store.changesBy (writes B₁) ∧
        e.loop.own.backlog.length = Feed.capacity := by
  have fresh := tidy_start settings timing logic withRelated keyed now rank
  have tidy := since.tidy fresh
  obtain ⟨before, hears⟩ := step.hears (later.listens (.inr running))
  have within := since.within fresh before (Nat.zero_le _)
  obtain ⟨x, old, youngest, rfl, loud⟩ := hears.youngest tidy before news
  have within' := hears.within tidy before within
  cases later.fate (tidy.step step) (.inr running) within' loud youngest with
  | waits old backlog => simp [drained] at backlog
  | taken arrived => simp [handled] at arrived
  | queued mem adds => exact .inl ⟨_, mem, adds⟩
  | overrun overrun => exact .inr overrun

def vacant : Station OrganizationSpec :=
  let c := start .default .native Organization.logic false .empty 0 0
  { c with loop := c.loop.launch (.ok c.store.list) }

theorem vacant_launched :
    Run (fun _ _ _ => True) (start .default .native Organization.logic false .empty 0 0)
      [(0, .added [])] vacant :=
  .step .here (.launch rfl) trivial

theorem news_queued_created :
    ∃ (A B : List (Nat × Deed OrganizationSpec)) (b' c : Station OrganizationSpec),
      Run (fun _ _ _ => True) (start .default .native Organization.logic false .empty 0 0)
        A vacant ∧
      Step vacant (.client (.create ⟨1⟩ (.new "" "a"))) b' ∧
      Store.News ⟨"", "a"⟩ vacant.store b'.store ∧ Run (fun _ _ _ => True) b' B c ∧
      c.loop.state = .running ∧ c.loop.own.backlog = [] ∧ c.loop.arrived = [] ∧
      ∃ y ∈ B, y.2.adds ⟨"", "a"⟩ ≠ 0 := by
  have created : Step vacant (.client (.create ⟨1⟩ (.new "" "a"))) _ := .client _
  have news : Store.News ⟨"", "a"⟩ vacant.store
      (vacant.write (.create ⟨1⟩ (.new "" "a"))).store := .inl ⟨rfl, rfl⟩
  have taken : Run (fun _ _ _ => True) (vacant.write (.create ⟨1⟩ (.new "" "a"))) _ _ :=
    .step (.step .here (.takeOwn rfl) trivial) (.arrive rfl) trivial
  refine ⟨_, _, _, _, vacant_launched, created, news, taken, rfl, rfl, rfl, ?_⟩
  rcases news_queued Store.keyed_empty vacant_launched created news taken rfl rfl rfl with
    queued | ⟨B₁, B₂, e, whole, -, backlog, full⟩
  · exact queued
  · -- nothing was written since
    have silent : writes (B₁ ++ B₂) = [] := by
      rw [← whole]
      rfl
    have silent : writes B₁ = [] := by
      unfold writes at silent ⊢
      rw [List.filterMap_append] at silent
      exact (List.append_eq_nil_iff.1 silent).1
    rw [backlog, silent] at full
    cases full

/-! ### A feed that is overrun -/

def flicker (n : Nat) : List (Write OrganizationSpec) :=
  (List.replicate n [.create ⟨2⟩ (.new "" "b"), .delete .epoch ⟨"", "b"⟩]).flatten

theorem changes_flicker (n : Nat) {s : Store OrganizationSpec} (absent : s.get? ⟨"", "b"⟩ = none) :
    (s.changesBy (flicker n)).length = 2 * n ∧
      ∀ x ∈ s.changesBy (flicker n), ∀ o ∈ x.objects, o.key = ⟨"", "b"⟩ := by
  induction n generalizing s with
  | zero => exact ⟨rfl, List.forall_mem_nil _⟩
  | succ n ih =>
    generalize ho : s.draw ((Resource.new "" "b").born ⟨2⟩) = o
    have key : o.key = ⟨"", "b"⟩ := by rw [← ho]; rfl
    have bare : o.metadata.finalizers.isEmpty = true := by rw [← ho]; rfl
    have created : s.write (.create ⟨2⟩ (.new "" "b")) = ⟨.ok (), s.put o, some (.created o)⟩ := by
      have absent : s.get? (Resource.new "" "b" : Organization).key = none := absent
      simp only [Store.write, Store.create, absent]
      rw [← ho]
      rfl
    have there : (s.put o).get? ⟨"", "b"⟩ = some o := by rw [← key, Store.get?_put_self]
    have deleted : (s.put o).write (.delete .epoch ⟨"", "b"⟩) =
        ⟨.ok (), (s.put o).remove ⟨"", "b"⟩, some (.deleted o)⟩ := by
      simp only [Store.write, Store.delete, there, bare, if_true]
      rfl
    have gone : ((s.put o).remove ⟨"", "b"⟩).get? ⟨"", "b"⟩ = none := by
      rw [Store.get?_remove, if_pos rfl]
    obtain ⟨length, keys⟩ := ih gone
    have whole : s.changesBy (flicker (n + 1)) = .created o :: .deleted o ::
        ((s.put o).remove ⟨"", "b"⟩).changesBy (flicker n) := by
      have unrolled : flicker (n + 1) = .create ⟨2⟩ (.new "" "b") ::
        .delete .epoch ⟨"", "b"⟩ :: flicker n := rfl
      simp only [unrolled, Store.changesBy, created, deleted, Option.toList_some, List.cons_append,
        List.nil_append]
    rw [whole]
    refine ⟨?_, ?_⟩
    · simp only [List.length_cons, length]
      omega
    · simpa [Change.objects, key] using keys

theorem run_clients (c : Station S) (ws : List (Write S)) :
    Run (fun _ _ _ => True) c (ws.map fun w => (c.now, .client w)) (ws.foldl write c) ∧
      (ws.foldl write c).now = c.now ∧ (ws.foldl write c).loop.state = c.loop.state ∧
      (ws.foldl write c).loop.arrived = c.loop.arrived := by
  induction ws using List.reverseRecOn with
  | nil => exact ⟨.here, rfl, rfl, rfl⟩
  | append_singleton ws w ih =>
    obtain ⟨run, now, state, arrived⟩ := ih
    rw [List.map_append, List.foldl_append]
    exact ⟨now ▸ run.step (.client w) trivial, now, state, arrived⟩

theorem own_clients (c : Station S) (ws : List (Write S)) :
    (ws.foldl write c).loop.own = (c.store.changesBy ws).foldl Feed.publish c.loop.own := by
  induction ws generalizing c with
  | nil => rfl
  | cons w ws ih =>
    rw [List.foldl_cons, ih, Store.changesBy, List.foldl_append]
    have heard : (c.write w).loop.own =
        (c.store.write w).change.elim c.loop.own c.loop.own.publish := rfl
    rw [heard]
    cases (c.store.write w).change <;> rfl

theorem run_arrived (c : Station S) : ∃ B c', Run (fun _ _ _ => True) c B c' ∧
    c'.loop.state = c.loop.state ∧ c'.loop.own = c.loop.own ∧ c'.loop.arrived = [] ∧
    ∀ y ∈ B, ∀ k, y.2.adds k ≠ 0 → k ∈ c.loop.arrived := by
  generalize waiting : c.loop.arrived = ks
  induction ks generalizing c with
  | nil => exact ⟨[], c, .here, rfl, rfl, waiting, List.forall_mem_nil _⟩
  | cons k ks ih =>
    have one : Run (fun _ _ _ => True) c [(c.now, .added [k])] _ :=
      .step .here (.arrive waiting) trivial
    rw [Loop.enqueueArrived_eq _ waiting] at one
    obtain ⟨B, c', run, state, own, free, added⟩ :=
      ih { c with loop := { c.loop with arrived := ks }.enqueue k } rfl
    refine ⟨_, c', one.trans run, state, own, free, ?_⟩
    rw [List.singleton_append, List.forall_mem_cons]
    refine ⟨fun l adds => ?_, fun y hy l adds => List.mem_cons_of_mem _ (added y hy l adds)⟩
    rw [Deed.adds, Ne, List.count_eq_zero, not_not, List.mem_singleton] at adds
    rw [adds]
    exact List.mem_cons_self ..

theorem run_reader (c : Station S) (free : c.loop.arrived = []) :
    ∃ B c', Run (fun _ _ _ => True) c B c' ∧ c'.loop.state = c.loop.state ∧
      c'.loop.own.backlog = [] ∧ c'.loop.arrived = [] ∧
      ∀ y ∈ B, ∀ k, y.2.adds k ≠ 0 → ∃ x ∈ c.loop.own.backlog, ∃ o ∈ x.objects, o.key = k := by
  generalize waiting : c.loop.own.backlog = xs
  induction xs generalizing c with
  | nil => exact ⟨[], c, .here, rfl, waiting, free, List.forall_mem_nil _⟩
  | cons x xs ih =>
    have took : Run (fun _ _ _ => True) c [(c.now, .rest)] _ :=
      .step .here (.takeOwn free) trivial
    rw [Loop.takeOwn_eq _ free] at took
    obtain ⟨A, e, handles, state, own, free', handled⟩ :=
      run_arrived
        { c with loop := { c.loop with own := c.loop.own.take.2, arrived := c.loop.news } }
    have rest : e.loop.own.backlog = xs := by
      rw [own]
      exact (congrArg List.tail waiting).trans List.tail_cons
    obtain ⟨B, c', reads, state', drained, done, taken⟩ := ih e free' rest
    refine ⟨_, c', (took.trans handles).trans reads, state'.trans state, drained, done, ?_⟩
    rw [List.forall_mem_append, List.singleton_append, List.forall_mem_cons]
    refine ⟨⟨fun k adds => absurd rfl adds, fun y hy k adds => ?_⟩, fun y hy k adds => ?_⟩
    · have known : k ∈ c.loop.news := handled y hy k adds
      rw [Loop.news, waiting] at known
      dsimp only at known
      split at known
      · exact ⟨x, List.mem_cons_self .., List.mem_map.1 known⟩
      · cases known
    · obtain ⟨z, hz, known⟩ := taken y hy k adds
      exact ⟨z, List.mem_cons_of_mem _ hz, known⟩

/-- A change is missed by a reader that is too late: 1024 younger ones have pushed it out. -/
theorem news_missed :
    ∃ (A B : List (Nat × Deed OrganizationSpec)) (b' c : Station OrganizationSpec),
      Run (fun _ _ _ => True) (start .default .native Organization.logic false .empty 0 0)
        A vacant ∧
      Step vacant (.client (.create ⟨1⟩ (.new "" "a"))) b' ∧
      Store.News ⟨"", "a"⟩ vacant.store b'.store ∧ Run (fun _ _ _ => True) b' B c ∧
      c.loop.state = .running ∧ c.loop.own.backlog = [] ∧ c.loop.arrived = [] ∧
      ∀ y ∈ B, y.2.adds ⟨"", "a"⟩ = 0 := by
  have created : Step vacant (.client (.create ⟨1⟩ (.new "" "a"))) _ := .client _
  have news : Store.News ⟨"", "a"⟩ vacant.store
      (vacant.write (.create ⟨1⟩ (.new "" "a"))).store := .inl ⟨rfl, rfl⟩
  have absent : (vacant.write (.create ⟨1⟩ (.new "" "a"))).store.get? ⟨"", "b"⟩ = none := rfl
  have one : (vacant.write (.create ⟨1⟩ (.new "" "a"))).loop.own.backlog.length = 1 := rfl
  have running : (vacant.write (.create ⟨1⟩ (.new "" "a"))).loop.state = .running := rfl
  have active : (vacant.write (.create ⟨1⟩ (.new "" "a"))).loop.own.active = true := rfl
  have byHand : (vacant.write (.create ⟨1⟩ (.new "" "a"))).loop.own.byHand = false := rfl
  have free : (vacant.write (.create ⟨1⟩ (.new "" "a"))).loop.arrived = [] := rfl
  generalize vacant.write (.create ⟨1⟩ (.new "" "a")) = p at *
  obtain ⟨count, keys⟩ := changes_flicker 512 absent
  obtain ⟨written, -, state, arrived⟩ := run_clients p (flicker 512)
  have within : p.loop.own.backlog.length ≤ Feed.capacity := one ▸ (by decide)
  obtain ⟨-, -, backlog⟩ := Feed.publishAll active byHand within (p.store.changesBy (flicker 512))
  have excess :
      (p.loop.own.backlog ++ p.store.changesBy (flicker 512)).length - Feed.capacity = 1 := by
    rw [List.length_append, one, count]
    rfl
  rw [excess, List.drop_left' one, ← own_clients] at backlog
  obtain ⟨B, c, read, state', drained, handled, taken⟩ :=
    run_reader ((flicker 512).foldl write p) (arrived.trans free)
  refine ⟨_, _, _, c, vacant_launched, created, news, written.trans read,
    state'.trans (state.trans running), drained, handled, fun y hy => ?_⟩
  rcases List.mem_append.1 hy with hy | hy
  · obtain ⟨w, -, rfl⟩ := List.mem_map.1 hy
    rfl
  · by_contra adds
    obtain ⟨x, hx, o, ho, key⟩ := taken y hy _ adds
    rw [backlog] at hx
    have other := (keys x hx o ho).symm.trans key
    simp at other

end Station
end Tenancy
