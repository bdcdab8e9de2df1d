import Tenancy.Proofs.Pacer
import Tenancy.Proofs.Reconcile.Dismissal
import Tenancy.Proofs.Reconcile.Manner

/-! Passes and the counter of their key. A pass that ends has left no counter behind: it asks for
the next wait only after it has seen the finalizer on the object, and once it has taken the
finalizer away it forgets the count before anything else. -/

namespace Tenancy

variable {S : Type}

namespace Request

def toPacer? : Request S → Option Pacer.Request
  | logic (.nextDelay i) => some (.nextDelay i)
  | logic (.forget i) => some (.forget i)
  | _ => none

def Keeps (k : Key) (q : Request S) : Prop :=
  q.Minds k ∧ ∀ r, q.toPacer? = some r → r.identity = k.identity

theorem keeps_of_mute {k : Key} {q : Request S} (minds : q.Minds k) (mute : q.toPacer? = none) :
    q.Keeps k :=
  ⟨minds, by simp [mute]⟩

end Request

def Store.Bears [ResourceKind S] (s : Store S) (k : Key) : Prop :=
  ∃ o, s.get? k = some o ∧ o.hasOwnFinalizer = true

theorem Store.Bears.effect [ResourceKind S] {s t : Store S} {w : Write S} {c : Option (Change S)}
    {k : Key} (h : s.Bears k) (effect : Store.Effect s w c t) (keyed : s.Keyed)
    (keeps : ∀ o, s.get? k = some o → o.hasOwnFinalizer = true →
      ¬w.Strips o (ResourceKind.finalizer S)) : t.Bears k := by
  obtain ⟨o, stored, own⟩ := h
  have had := Resource.hasOwnFinalizer_iff.1 own
  have kept := keeps o stored own
  rcases effect.fate keyed stored with ⟨d, hd, -, has⟩ | ⟨-, strips⟩
  · have still := (has _ had).resolve_right kept
    exact ⟨d, hd, Resource.hasOwnFinalizer_iff.2 still⟩
  · exact absurd (strips _ had) kept

/-- What a pass knows of its object and of the counter: nothing, that an object which is counted has
its finalizer, or that the object has its finalizer. -/
inductive Grip where
  | loose
  | even
  | firm
deriving DecidableEq

namespace Grip

variable [ResourceKind S] {g : Grip} {k : Key} {s t : Store S} {p p' : Pacer}

def Holds (k : Key) (s : Store S) (p : Pacer) : Grip → Prop
  | loose => True
  | even => (p.count? k.identity).isSome → s.Bears k
  | firm => s.Bears k

theorem Holds.stay (h : g.Holds k s p) (bears : s.Bears k → t.Bears k)
    (count : p'.count? k.identity = p.count? k.identity) : g.Holds k t p' := by
  cases g with
  | loose => trivial
  | even => exact fun counted => bears (h (count ▸ counted))
  | firm => exact bears h

theorem Holds.counted (h : g.Holds k s p) (hg : g ≠ loose)
    (counted : (p.count? k.identity).isSome) : s.Bears k := by
  cases g with
  | loose => exact absurd rfl hg
  | even => exact h counted
  | firm => exact h

def learn (g : Grip) : (q : Request S) → q.Answer → Grip
  | .get _, .ok o => if o.hasOwnFinalizer then firm else g
  | .update o, .ok _ => if o.hasOwnFinalizer then firm else loose
  | .logic (.nextDelay _), _ => if g = firm then firm else loose
  | .logic (.forget _), _ => if g = firm then firm else even
  | _, _ => g

theorem learn_mute {q : Ask} (mute : (Request.logic (S := S) q).toPacer? = none)
    (a : (Request.logic (S := S) q).Answer) : g.learn (.logic q) a = g := by
  cases q with
  | nextDelay | forget => cases mute
  | organizations | sleep | entered => rfl

theorem holds_get (h : g.Holds k s p) : (g.learn (.get k) (s.get k)).Holds k s p := by
  cases got : s.get k with
  | error => exact h
  | ok o =>
    dsimp only [learn]
    split
    · exact ⟨o, Store.get_eq_ok.1 got, ‹_›⟩
    · exact h

theorem holds_update {o : Resource S} (h : g.Holds o.key s p) :
    (g.learn (.update o) (s.update o).answer).Holds o.key (s.update o).store p := by
  unfold Store.update
  cases s.held o with
  | error => exact h
  | ok x =>
    dsimp only
    by_cases own : o.hasOwnFinalizer = true
    · -- it is not removed, for it has a finalizer
      have some_left : o.metadata.finalizers.isEmpty = false := by
        simp [List.ne_nil_of_mem (Resource.hasOwnFinalizer_iff.1 own)]
      rw [if_neg (by simp [Store.revise, some_left])]
      dsimp only [learn]
      rw [if_pos own]
      exact ⟨_, Store.get?_put_self s (s.draw (Store.revise x o)), own⟩
    · split <;> (dsimp only [learn]; rw [if_neg own]; trivial)

theorem holds_nextDelay (h : g.Holds k s p) (d : Span) :
    (g.learn (S := S) (.logic (.nextDelay k.identity)) d).Holds k s (p.nextDelay k.identity).2 := by
  dsimp only [learn]
  split
  · rename_i firm
    subst firm
    exact h
  · trivial

theorem holds_forget (h : g.Holds k s p) :
    (g.learn (S := S) (.logic (.forget k.identity)) ()).Holds k s (p.forget k.identity) := by
  dsimp only [learn]
  split
  · rename_i firm
    subst firm
    exact h
  · intro counted
    rw [Pacer.count?_forget_self] at counted
    cases counted

end Grip

/-- Logic that counts its objects under their identities, and asks the pacer for nothing else. -/
structure Logic.Tallies (logic : Logic S) : Prop where
  paced : ∃ apply, logic = .paced apply
  steady : logic.Steady
  mute : ∀ o, (Pass.inquire (logic.apply o) : Pass S _).Only (·.toPacer? = none)

theorem Organization.tallies : Organization.logic.Tallies :=
  ⟨⟨_, rfl⟩, Organization.steady, fun _ => trivial⟩

theorem Deployment.tallies : Deployment.logic.Tallies := by
  refine ⟨⟨_, rfl⟩, Deployment.steady, fun d => ⟨rfl, fun r _ _ => ?_⟩⟩
  cases r with
  | error e => trivial
  | ok organizations =>
    dsimp only [Program.bind]
    split <;> trivial

/-! ### Passes -/

namespace Pass

open Program

variable [ResourceKind S] {α : Type} {g : Grip} {k : Key} {logic : Logic S} {o : Resource S}

abbrev Learned (g : Grip) (q : Request S) (a : q.Answer) (g' : Grip) : Prop :=
  q.Apt a ∧ g' = g.learn q a

abbrev Accounts (k : Key) (p : Pass S α) (promised : α → Grip → Prop) (g : Grip) : Prop :=
  p.Safe (Request.Keeps k) Learned promised g

def Squares (_ : Outcome) (g : Grip) : Prop := g ≠ .loose

theorem accounts_inquire {promised : α → Grip → Prop} {i : Inquiry α}
    (mute : (inquire i : Pass S α).Only (·.toPacer? = none))
    (h : ∀ t a, Leads (inquire i : Pass S α) t (.done a) → promised a g) :
    Accounts k (inquire i : Pass S α) promised g := by
  induction i with
  | done a => exact h [] a (.here _)
  | ask q next ih =>
    refine ⟨Request.keeps_of_mute trivial mute.1, fun r g' learned => ?_⟩
    obtain ⟨-, rfl⟩ := learned
    rw [Grip.learn_mute mute.1]
    exact ih r (mute.2 r () trivial) fun t a l => h _ a (.told l)

theorem accounts_advance {p : Phase} {s : Step} {next : Phase → Bool → Pass S Outcome}
    (hg : g ≠ .loose) (h : ∀ q persist, Accounts k (next q persist) Squares g) :
    Accounts k (advance p s next) Squares g := by
  unfold advance
  split
  · exact h _ _
  · exact hg

theorem accounts_writeStatus {promised : Except ReconcileError Unit → Grip → Prop}
    (h : ∀ r, promised r g) : Accounts k (writeStatus o) promised g := by
  refine ⟨Request.keeps_of_mute trivial rfl, fun a g' learned => ?_⟩
  obtain ⟨-, rfl⟩ := learned
  cases a <;> exact h _

theorem accounts_clock {promised : Instant → Grip → Prop} (h : ∀ now, promised now g) :
    Accounts k (clock : Pass S Instant) promised g := by
  refine ⟨Request.keeps_of_mute trivial rfl, fun now g' learned => ?_⟩
  obtain ⟨-, rfl⟩ := learned
  exact h now

theorem accounts_fail (p : Phase) (o : Resource S) (e : ReconcileError) (hg : g ≠ .loose) :
    Accounts k (fail p o e) Squares g := by
  refine accounts_advance hg fun _ persist => ?_
  split
  · refine safe_bind (accounts_clock fun now => safe_bind (accounts_writeStatus fun r => ?_))
    cases r <;> exact hg
  · exact hg

theorem accounts_conclude (tallies : logic.Tallies) (p : Phase) (persist : Bool)
    (key : o.key = k) : Accounts k (conclude logic p persist o) Squares .firm := by
  obtain ⟨apply, rfl⟩ := tallies.paced
  have hg : Grip.firm ≠ .loose := by simp
  -- the object has its finalizer, so that it may be counted
  have go (o : Resource S) (key : o.key = k) : Accounts k (advance p .statusWritten fun _ _ => do
      return .ok (some (← inquire ((Logic.paced apply).delay o))) : Pass S Outcome)
      Squares .firm := by
    refine accounts_advance hg fun _ _ => ⟨⟨trivial, ?_⟩, fun d g' learned => ?_⟩
    · rintro r ⟨⟩
      exact congrArg Key.identity key
    · obtain ⟨-, rfl⟩ := learned
      exact hg
  unfold conclude
  split
  · refine safe_bind (accounts_clock fun now => safe_bind (accounts_writeStatus fun r => ?_))
    cases r with
    | ok => exact go _ key
    | error => exact accounts_advance hg fun _ _ => hg
  · exact go o key

theorem accounts_add {promised : Hooked S → Grip → Prop} (key : o.key = k)
    (own : o.hasOwnFinalizer = true → g = .firm)
    (done : ∀ o, o.key = k → promised (o, .ok ()) .firm)
    (refused : ∀ o e, promised (o, .error e) g) :
    Accounts k (amend (Finalizer.addInStore o)) promised g := by
  rw [Finalizer.addInStore_eq]
  split
  · rename_i has
    rw [own has]
    exact done o key
  · have key' : (o.withFinalizer (ResourceKind.finalizer S)).key = k :=
      (o.key_withFinalizer _).trans key
    have has := Resource.hasOwnFinalizer_iff.2 (o.mem_withFinalizer (ResourceKind.finalizer S))
    refine ⟨Request.keeps_of_mute key' rfl, fun a g' learned => ?_⟩
    obtain ⟨apt, rfl⟩ := learned
    cases a with
    | ok n =>
      dsimp only [Grip.learn]
      rw [if_pos has]
      exact done n ((apt n rfl).1.trans key')
    | error e => exact refused _ _

theorem accounts_live (tallies : logic.Tallies) (p : Phase) (key : o.key = k) (hg : g ≠ .loose)
    (own : o.hasOwnFinalizer = true → g = .firm) :
    Accounts k (live logic .inStore p o) Squares g := by
  have firm : Grip.firm ≠ .loose := by simp
  refine safe_bind (accounts_add key own (fun o key => ?_) fun o e => accounts_fail p o _ hg)
  refine accounts_advance firm fun p _ => safe_bind (accounts_inquire ?_ ?_)
  · obtain ⟨apply, rfl⟩ := tallies.paced
    trivial
  rintro t ⟨o', e | ⟨⟩⟩ l
  · exact accounts_fail p o' e firm
  have key := (tallies.steady.prepare o t o' _ l).1.trans key
  refine accounts_advance firm fun p _ => safe_bind (accounts_inquire (tallies.mute o') ?_)
  rintro t ⟨o'', e | ⟨⟩⟩ l
  · exact accounts_fail p o'' e firm
  have key := (tallies.steady.apply o' t o'' _ l).1.trans key
  exact accounts_advance firm fun p persist => accounts_conclude tallies p persist key

theorem accounts_finalize (tallies : logic.Tallies) (wait : Span) (key : o.key = k)
    (hg : g ≠ .loose) : Accounts k (finalize logic .inStore wait .deleting o) Squares g := by
  obtain ⟨apply, rfl⟩ := tallies.paced
  have away (o : Resource S) (key : o.key = k) (g : Grip) :
      Accounts k (advance .deleting .finalizerRemoved fun _ _ => do
        inquire ((Logic.paced apply).release o)
        return .ok none : Pass S Outcome) Squares g := by
    refine ⟨⟨trivial, ?_⟩, fun _ g' learned => ?_⟩
    · rintro r ⟨⟩
      exact congrArg Key.identity key
    · obtain ⟨-, rfl⟩ := learned
      have square : (if g = .firm then Grip.firm else .even) ≠ .loose := by split <;> simp
      exact square
  refine safe_bind ?_
  have remove : Finalizer.inStore.remove o = _ := Finalizer.removeInStore_eq o
  rw [remove]
  split
  · exact away o key g
  · refine ⟨Request.keeps_of_mute key rfl, fun a g' learned => ?_⟩
    obtain ⟨apt, rfl⟩ := learned
    cases a with
    | ok n => exact away n ((apt n rfl).1.trans key) _
    | error e =>
      dsimp only [Program.bind]
      cases e.isNotFound with
      | true => exact away _ key g
      | false => exact accounts_fail .deleting _ _ hg

theorem accounts_run (tallies : logic.Tallies) (wait : Span) (k : Key) :
    Accounts k (run logic .inStore wait k) Squares .even := by
  have even : Grip.even ≠ .loose := by simp
  refine ⟨Request.keeps_of_mute rfl rfl, fun a g learned => ?_⟩
  obtain ⟨apt, learned⟩ := learned
  cases a with
  | error e =>
    rw [learned]
    dsimp only [Program.bind]
    split
    · exact accounts_advance even fun _ _ => even
    · exact accounts_advance even fun _ _ => even
  | ok o =>
    have key : o.key = k := apt o rfl
    have learned : g = if o.hasOwnFinalizer then .firm else .even := learned
    have own (has : o.hasOwnFinalizer = true) : g = .firm := by rw [learned, if_pos has]
    have hg : g ≠ .loose := by
      rw [learned]
      split <;> simp
    dsimp only [Program.bind]
    split
    · exact accounts_advance hg fun _ _ => hg
    · cases mark : o.wasDeleted with
      | true => exact accounts_finalize tallies wait key hg
      | false => exact accounts_live tallies .live key hg own

end Pass
end Tenancy
