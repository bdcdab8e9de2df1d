import Tenancy.Control.Cluster
import Tenancy.Proofs.Equality
import Tenancy.Proofs.Reconcile.Guard
import Tenancy.Proofs.Reconcile.Manner
import Tenancy.Proofs.Store.Generation

/-! What becomes of the changes that a pass makes. It writes what it has got, with its version, so
the specification stays as it is; the loop that made the pass passes the change over, and so do the
deployments of an organization. Only the end of a marked object is news. -/

namespace Tenancy

open History

variable {S : Type} [ResourceKind S]

namespace Store

variable {s t : Store S} {c : Change S} {o u : Resource S}

theorem Effect.of_copy [ReflBEq S] (h : Effect s (.update u) (some c) t)
    (current : ∀ d, s.get? o.key = some d → d.version = o.version → d = o) (copies : u.Copies o)
    (spec : u.spec = o.spec) :
    c.generationChanged = false ∨
      c = .deleted (revise o u) ∧ o.wasDeleted = true ∧ u.metadata.finalizers = [] := by
  have same {d : Resource S} (stored : s.get? u.key = some d) (version : u.version = d.version) :
      d = o :=
    current d (copies.1 ▸ stored) (version.symm.trans copies.2)
  cases h with
  | updated stored version =>
    obtain rfl := same stored version
    refine .inl (Change.generationChanged_of_same copies.1.symm ?_)
    exact if_pos (spec ▸ BEq.refl _)
  | released stored version marked bare =>
    obtain rfl := same stored version
    exact .inr ⟨rfl, Option.isSome_iff_ne_none.2 marked, bare⟩

theorem Effect.of_status (h : Effect s (.updateStatus u) (some c) t) :
    c.generationChanged = false := by
  cases h with
  | statusUpdated => exact Change.generationChanged_of_same rfl rfl

end Store

namespace Pass

/-- The change that a write of a pass comes to. The pass got its object after the writes `ws`, and
asks for this one after `vs`, its own among them. -/
structure Makes (logic : Logic S) (wait : Span) (key : Key)
    (dialogue : Program.Dialogue (Request.Answer (S := S))) (ws vs : List (Write S)) (w : Write S)
    (c : Change S) : Prop where
  asks : ∃ q next, Program.Leads (run logic .inStore wait key) dialogue (.ask q next) ∧
    q.write? = some w
  fetched : ∀ o, ⟨.get key, .ok o⟩ ∈ dialogue → (after ws).store.get? key = some o
  room : (after (ws ++ vs)).log.length < 2 ^ 64
  change : ((after (ws ++ vs)).store.write w).change = some c

variable {logic : Logic S} {wait : Span} {key : Key}
  {dialogue : Program.Dialogue (Request.Answer (S := S))} {ws vs : List (Write S)} {w : Write S}
  {c : Change S}

theorem Makes.update [ReflBEq S] {o u : Resource S}
    (makes : Makes logic wait key dialogue ws vs (.update u) c)
    (fetched : ⟨.get key, .ok o⟩ ∈ dialogue) (copies : u.Copies o) (spec : u.spec = o.spec) :
    c.generationChanged = false ∨
      c = .deleted (Store.revise o u) ∧ o.wasDeleted = true ∧ u.metadata.finalizers = [] := by
  have stored := makes.fetched o fetched
  have effect := (after (ws ++ vs)).store.effect_write (.update u)
  rw [makes.change] at effect
  refine effect.of_copy (fun d hd version => ?_) copies spec
  rw [keyed_after ws key o stored] at hd
  -- a version never comes back, so what has it still is the object that was got
  rcases current_or_retired_append makes.room stored with still | retired
  · exact Option.some.inj (hd.symm.trans still)
  · exact absurd version (retired.ne key d hd)

theorem Makes.quiet_or_gone [ReflBEq S] (makes : Makes logic wait key dialogue ws vs w c) :
    c.generationChanged = false ∨
      ∃ o u, ⟨.get key, .ok o⟩ ∈ dialogue ∧ o.wasDeleted = true ∧
        u = o.withoutFinalizer (ResourceKind.finalizer S) ∧ u.metadata.finalizers = [] ∧
        w = .update u ∧ c = .deleted (Store.revise o u) := by
  obtain ⟨q, next, asks, hw⟩ := makes.asks
  cases q with
  | get | clock | logic => cases hw
  | updateStatus u =>
    cases hw
    have effect := (after (ws ++ vs)).store.effect_write (.updateStatus u)
    rw [makes.change] at effect
    exact .inl effect.of_status
  | update u =>
    cases hw
    obtain ⟨o, t, rfl, ⟨-, guards⟩ | ⟨marked, -, gives, -⟩⟩ := update_of_run asks
    · rcases makes.update List.mem_cons_self (guards ▸ .withFinalizer o _) (guards ▸ rfl) with
        quiet | ⟨-, -, bare⟩
      · exact .inl quiet
      · have guarded := o.mem_withFinalizer (ResourceKind.finalizer S)
        rw [← guards, bare] at guarded
        cases guarded
    · rcases makes.update List.mem_cons_self (gives ▸ .rfl) (gives ▸ rfl) with
        quiet | ⟨gone, -, bare⟩
      · exact .inl quiet
      · exact .inr ⟨o, u, List.mem_cons_self, marked, gives, bare, rfl, gone⟩

end Pass

/-! ### Whom a change reaches -/

omit [ResourceKind S] in
theorem Loop.takeOwn_of_quiet {l : Loop S} {c : Change S} (head : l.own.backlog.head? = some c)
    (quiet : c.generationChanged = false) : l.takeOwn = { l with own := l.own.take.2 } := by
  simp only [takeOwn, Feed.take, head, quiet]
  rfl

theorem Cluster.relate_of_quiet {s : Cluster} {l : Loop DeploymentSpec}
    {f : Feed OrganizationSpec} {c : Change OrganizationSpec} (done : l.concerned = [])
    (related : l.related = some f) (head : f.backlog.head? = some c)
    (quiet : c.generationChanged = false) :
    s.relate l = ({ l with related := some f.take.2 }, s) := by
  simp only [relate, done, related, Feed.take, head, Option.map_some, List.isEmpty_nil, if_true,
    Option.any_some, quiet]
  rfl

namespace Pass

/-- The filter lets through what matters and nothing else: an update if it respecified or marked the
object, which is what generations count; and of all that a pass makes, the end of its object. -/
theorem no_echo [ReflBEq S] :
    (∀ (ws : List (Write S)) w old new,
      ((after ws).store.write w).change = some (.updated old new) →
      (after ws).store.get? new.key = some old ∧ (after (ws ++ [w])).store.get? new.key = some new ∧
      ((Change.updated old new).generationChanged = true ↔
        (old.spec == new.spec) = false ∨ old.wasDeleted = false ∧ new.wasDeleted = true)) ∧
    (∀ (ws : List (Write S)) k o, (after ws).store.get? k = some o →
      ∃ before uid x rest, ws = before ++ .create uid x :: rest ∧ Lives k before uid x rest ∧
        o.metadata.generation =
          .ofNat (1 + revisions k before uid x rest + o.wasDeleted.toNat) ∧
        (ws.length < 2 ^ 64 → o.metadata.generation.toNat =
          1 + revisions k before uid x rest + o.wasDeleted.toNat)) ∧
    (∀ (logic : Logic S) wait key dialogue ws vs w c, Makes logic wait key dialogue ws vs w c →
      (c.generationChanged = false ∧
        ∀ l : Loop S, l.own.backlog.head? = some c → l.takeOwn = { l with own := l.own.take.2 }) ∨
      ∃ o u, ⟨.get key, .ok o⟩ ∈ dialogue ∧ o.wasDeleted = true ∧
        u = o.withoutFinalizer (ResourceKind.finalizer S) ∧ u.metadata.finalizers = [] ∧
        w = .update u ∧ c = .deleted (Store.revise o u)) ∧
    ∀ (logic : Logic OrganizationSpec) wait key dialogue ws vs w c,
      Makes logic wait key dialogue ws vs w c → (∀ o, c ≠ .deleted o) →
      ∀ (s : Cluster) (l : Loop DeploymentSpec) f, l.concerned = [] → l.related = some f →
        f.backlog.head? = some c → s.relate l = ({ l with related := some f.take.2 }, s) := by
  refine ⟨?_, ?_, ?_, ?_⟩
  · intro ws w old new change
    have keyed := keyed_after ws
    have effect := (after ws).store.effect_write w
    obtain ⟨ho, hn⟩ := effect.stored_of_updated keyed change
    have ages := effect.ages keyed ho hn
    refine ⟨ho, ?_, ages.generationChanged (keyed _ _ ho)⟩
    rw [after_concat]
    exact hn
  · intro ws k o stored
    obtain ⟨before, uid, x, rest, rfl, lives, generation, le⟩ := generation_after ws stored
    refine ⟨before, uid, x, rest, rfl, lives, generation, fun room => ?_⟩
    rw [List.length_append, List.length_cons] at room
    rw [generation]
    refine UInt64.toNat_ofNat_of_lt' ?_
    show _ < 2 ^ 64
    omega
  · intro logic wait key dialogue ws vs w c makes
    rcases makes.quiet_or_gone with quiet | gone
    · exact .inl ⟨quiet, fun l head => Loop.takeOwn_of_quiet head quiet⟩
    · exact .inr gone
  · intro logic wait key dialogue ws vs w c makes stays s l f done related head
    rcases makes.quiet_or_gone with quiet | ⟨o, u, -, -, -, -, -, gone⟩
    · exact Cluster.relate_of_quiet done related head quiet
    · exact absurd gone (stays _)

def newcomer : Organization := Store.empty.draw ((Resource.new "a" "b").born ⟨1⟩)

def described : Organization :=
  let guarded := newcomer.withFinalizer (ResourceKind.finalizer OrganizationSpec)
  { guarded with
    metadata := { guarded.metadata with resourceVersion := 2 }
    spec := ⟨some "c", [], none⟩ }

def visits : List (Write OrganizationSpec) :=
  [.create ⟨1⟩ (.new "a" "b"),
    .update (newcomer.withFinalizer (ResourceKind.finalizer OrganizationSpec)),
    .update described, .delete .epoch ⟨"a", "b"⟩]

theorem no_echo_newcomer :
    (∃ old new, ((after (visits.take 3)).store.write (.delete .epoch ⟨"a", "b"⟩)).change =
        some (.updated old new) ∧ (Change.updated old new).generationChanged = true) ∧
    (∃ o before uid x rest, (after visits).store.get? ⟨"a", "b"⟩ = some o ∧
      o.metadata.generation = 3 ∧ visits = before ++ .create uid x :: rest ∧
      o.metadata.generation.toNat = 1 + revisions ⟨"a", "b"⟩ before uid x rest + 1) ∧
    ∃ n, Makes Organization.logic ⟨0⟩ ⟨"a", "b"⟩ [⟨.get ⟨"a", "b"⟩, .ok newcomer⟩]
        (visits.take 1) []
        (.update (newcomer.withFinalizer (ResourceKind.finalizer OrganizationSpec)))
        (.updated newcomer n) ∧
      (Change.updated newcomer n).generationChanged = false := by
  obtain ⟨exact_, counted, made, -⟩ := no_echo (S := OrganizationSpec)
  refine ⟨?_, ?_, ?_⟩
  · obtain ⟨old, new, change, unmarked, marked⟩ : ∃ old new,
        ((after (visits.take 3)).store.write (.delete .epoch ⟨"a", "b"⟩)).change =
          some (.updated old new) ∧ old.wasDeleted = false ∧ new.wasDeleted = true :=
      ⟨_, _, rfl, rfl, rfl⟩
    obtain ⟨-, -, passes⟩ := exact_ _ _ old new change
    exact ⟨old, new, change, passes.2 (.inr ⟨unmarked, marked⟩)⟩
  · obtain ⟨o, stored, marked, third⟩ : ∃ o, (after visits).store.get? ⟨"a", "b"⟩ = some o ∧
        o.wasDeleted = true ∧ o.metadata.generation = 3 :=
      ⟨_, rfl, rfl, by decide +kernel⟩
    obtain ⟨before, uid, x, rest, split, -, -, generation⟩ := counted visits _ o stored
    have generation := generation (by decide)
    rw [marked] at generation
    exact ⟨o, before, uid, x, rest, stored, third, split, generation⟩
  · obtain ⟨n, makes⟩ : ∃ n, Makes Organization.logic ⟨0⟩ ⟨"a", "b"⟩
        [⟨.get ⟨"a", "b"⟩, .ok newcomer⟩] (visits.take 1) []
        (.update (newcomer.withFinalizer (ResourceKind.finalizer OrganizationSpec)))
        (.updated newcomer n) := by
      refine ⟨_, ⟨_, _, .told (.here _), rfl⟩, fun o ho => ?_, ?_, rfl⟩
      · cases List.mem_singleton.1 ho
        rfl
      · exact (log_length_le _).trans_lt (by decide)
    rcases made _ _ _ _ _ _ _ _ makes with ⟨quiet, -⟩ | ⟨o, u, -, -, -, -, -, gone⟩
    · exact ⟨n, makes, quiet⟩
    · cases gone

end Pass
end Tenancy
