import Tenancy.Proofs.Identity
import Tenancy.Proofs.Reconcile.Grip

/-! A store with a pacer while clients write and passes work, one at a time for each key. As long as
nobody else takes finalizers away and no pass is cut, an object that is counted has its finalizer or
is being worked on, so that an object which has gone leaves no counter to the next one of its
key. -/

namespace Tenancy

structure Workshop (S : Type) where
  store : Store S
  pacer : Pacer
  passes : Key → Pass S Outcome

namespace Workshop

variable {S : Type}

inductive Move (S : Type) where
  | client (w : Write S)
  | begin_ (k : Key)
  | ask (k : Key) (q : Request S)
  | cut (k : Key)

def Move.request? : Move S → Option Pacer.Request
  | ask _ q => q.toPacer?
  | client _ | begin_ _ | cut _ => none

def start (store : Store S) (pacer : Pacer) : Workshop S :=
  ⟨store, pacer, fun _ => .done (.ok none)⟩

def Busy (a : Workshop S) (k : Key) : Prop := ∃ q next, a.passes k = .ask q next

def setPass (a : Workshop S) (k : Key) (p : Pass S Outcome) : Workshop S :=
  { a with passes := Function.update a.passes k p }

theorem passes_setPass (a : Workshop S) (k : Key) (p : Pass S Outcome) (l : Key) :
    (a.setPass k p).passes l = if l = k then p else a.passes l :=
  Function.update_apply a.passes k p l

theorem busy_setPass {a : Workshop S} {k l : Key} {p : Pass S Outcome}
    (h : (a.setPass k p).Busy l) : l = k ∨ a.Busy l := by
  obtain ⟨q, next, asks⟩ := h
  rw [passes_setPass] at asks
  split at asks
  · exact .inl ‹_›
  · exact .inr ⟨q, next, asks⟩

variable [ResourceKind S]

def write (a : Workshop S) (w : Write S) : Workshop S := { a with store := (a.store.write w).store }

/-- The store and the pacer answer what concerns them; others say what they like. To forget is not
waited for, but requests are served in the order in which they are sent, so that every later one
comes to a pacer that has forgotten. -/
inductive Answered (a : Workshop S) : (q : Request S) → q.Answer → Workshop S → Prop
  | get (key) : Answered a (.get key) (a.store.get key) a
  | update (o) : Answered a (.update o) (a.store.update o).answer (a.write (.update o))
  | updateStatus (o) :
    Answered a (.updateStatus o) (a.store.updateStatus o).answer (a.write (.updateStatus o))
  | clock (now) : Answered a .clock now a
  | organizations (r) : Answered a (.logic .organizations) r a
  | nextDelay (i) :
    Answered a (.logic (.nextDelay i)) (a.pacer.nextDelay i).1
      { a with pacer := (a.pacer.nextDelay i).2 }
  | forget (i) : Answered a (.logic (.forget i)) () { a with pacer := a.pacer.forget i }
  | sleep (d) : Answered a (.logic (.sleep d)) () a
  | entered (hook) : Answered a (.logic (.entered hook)) () a

inductive Step (logic : Logic S) (wait : Span) (a : Workshop S) : Move S → Workshop S → Prop
  | client (w) : Step logic wait a (.client w) (a.write w)
  | begin_ {k} (idle : ¬a.Busy k) :
    Step logic wait a (.begin_ k) (a.setPass k (Pass.run logic .inStore wait k))
  | ask {k q r b} {next : Request.Answer q → Pass S Outcome} (at_ : a.passes k = .ask q next)
    (answered : Answered a q r b) : Step logic wait a (.ask k q) (b.setPass k (next r))
  | cut (k limit) : Step logic wait a (.cut k) (a.setPass k (.done (.error (.timeout limit))))

inductive Run (logic : Logic S) (wait : Span) (allowed : Workshop S → Move S → Prop)
    (a : Workshop S) : List (Move S) → Workshop S → Prop
  | here : Run logic wait allowed a [] a
  | step {tr b m c} (run : Run logic wait allowed a tr b) (step : Step logic wait b m c)
    (ok : allowed b m) : Run logic wait allowed a (tr ++ [m]) c

variable {logic : Logic S} {wait : Span} {allowed : Workshop S → Move S → Prop} {a b : Workshop S}
  {m : Move S} {tr : List (Move S)} {k l : Key}

/-! ### Steps -/

theorem Answered.apt {q : Request S} {r : q.Answer} (h : Answered a q r b) (keyed : a.store.Keyed) :
    q.Apt r := by
  have answers : q.Answers a.store r := by cases h <;> trivial
  exact answers.apt keyed

theorem Answered.passes {q : Request S} {r : q.Answer} (h : Answered a q r b) :
    b.passes = a.passes := by
  cases h <;> rfl

theorem Answered.store {q : Request S} {r : q.Answer} (h : Answered a q r b) :
    b.store = a.store ∨ ∃ w, q.write? = some w ∧ b.store = (a.store.write w).store := by
  cases h with
  | update o => exact .inr ⟨.update o, rfl, rfl⟩
  | updateStatus o => exact .inr ⟨.updateStatus o, rfl, rfl⟩
  | get | clock | organizations | nextDelay | forget | sleep | entered => exact .inl rfl

theorem Answered.pacer {q : Request S} {r : q.Answer} (h : Answered a q r b) :
    b.pacer = q.toPacer?.elim a.pacer fun r => (a.pacer.serve r).2 := by
  cases h <;> rfl

theorem Step.pacer (step : Step logic wait a m b) :
    b.pacer = m.request?.elim a.pacer fun r => (a.pacer.serve r).2 := by
  cases step with
  | client | begin_ | cut => rfl
  | ask _ answered => exact answered.pacer

theorem Answered.keyed {q : Request S} {r : q.Answer} (h : Answered a q r b)
    (keyed : a.store.Keyed) : b.store.Keyed := by
  rcases h.store with same | ⟨w, -, written⟩
  · exact same ▸ keyed
  · exact written ▸ (Store.turn_write keyed w).keyed keyed

/-! ### What is kept -/

theorem Answered.bears {q : Request S} {r : q.Answer} (h : Answered a q r b) (keyed : a.store.Keyed)
    (minds : q.Minds k) (hl : l ≠ k) (bears : a.store.Bears l) : b.store.Bears l := by
  rcases h.store with same | ⟨w, asked, written⟩
  · exact same ▸ bears
  rw [written]
  refine bears.effect (a.store.effect_write w) keyed fun o stored _ strips => hl ?_
  obtain ⟨u, rfl, key, -⟩ := strips
  have key : u.key = l := key.trans (keyed l o stored)
  cases q with
  | update x =>
    cases asked
    exact key.symm.trans minds
  | get | updateStatus | clock | logic => cases asked

theorem Answered.learned {g : Grip} {q : Request S} {r : q.Answer} (h : Answered a q r b)
    (keyed : a.store.Keyed) (keeps : q.Keeps k) (holds : g.Holds k a.store a.pacer) :
    (g.learn q r).Holds k b.store b.pacer := by
  obtain ⟨minds, identity⟩ := keeps
  cases h with
  | get key =>
    cases minds
    exact Grip.holds_get holds
  | update o =>
    cases minds
    exact Grip.holds_update holds
  | updateStatus o =>
    refine holds.stay (fun bears => ?_) rfl
    refine bears.effect (a.store.effect_write (.updateStatus o)) keyed ?_
    rintro x - - ⟨u, ⟨⟩, -⟩
  | nextDelay i =>
    obtain rfl : i = k.identity := identity _ rfl
    exact Grip.holds_nextDelay holds _
  | forget i =>
    obtain rfl : i = k.identity := identity _ rfl
    exact Grip.holds_forget holds
  | clock | organizations | sleep | entered => exact holds

/-- Nobody takes the finalizer of the kind from an object but the passes, none of them is cut, and
no namespace has a dot. -/
def Orderly (a : Workshop S) : Move S → Prop
  | .client w => ∀ k o, a.store.get? k = some o → o.hasOwnFinalizer = true →
      ¬w.Strips o (ResourceKind.finalizer S)
  | .begin_ k => '.' ∉ k.ns.toList
  | .ask _ _ => True
  | .cut _ => False

structure Sound (a : Workshop S) : Prop where
  keyed : a.store.Keyed
  plain : ∀ k, a.Busy k → '.' ∉ k.ns.toList
  square : ∀ k, '.' ∉ k.ns.toList →
    ∃ g : Grip, Pass.Accounts k (a.passes k) Pass.Squares g ∧ g.Holds k a.store a.pacer

theorem Sound.bears_of_counted (h : a.Sound) (plain : '.' ∉ k.ns.toList) (idle : ¬a.Busy k)
    (counted : (a.pacer.count? k.identity).isSome) : a.store.Bears k := by
  obtain ⟨g, accounts, holds⟩ := h.square k plain
  cases pass : a.passes k with
  | done r =>
    rw [pass] at accounts
    exact holds.counted accounts counted
  | ask q next => exact absurd ⟨q, next, pass⟩ idle

theorem sound_start {store : Store S} (keyed : store.Keyed) (threshold : UInt32)
    (short steady : Span) : (start store (.new threshold short steady)).Sound := by
  refine ⟨keyed, fun k busy => ?_, fun k _ => ⟨.even, ?_, fun counted => ?_⟩⟩
  · obtain ⟨q, next, asks⟩ := busy
    cases asks
  · exact Grip.noConfusion
  · have none_yet : (Pacer.new threshold short steady).count? k.identity = none :=
      Std.ExtTreeMap.getElem?_empty
    have counted : ((Pacer.new threshold short steady).count? k.identity).isSome := counted
    rw [none_yet] at counted
    cases counted

theorem Sound.client (h : a.Sound) {w : Write S} (orderly : a.Orderly (.client w)) :
    (a.write w).Sound := by
  refine ⟨(Store.turn_write h.keyed w).keyed h.keyed, h.plain, fun k plain => ?_⟩
  obtain ⟨g, accounts, holds⟩ := h.square k plain
  refine ⟨g, accounts, holds.stay (fun bears => ?_) rfl⟩
  exact bears.effect (a.store.effect_write w) h.keyed (orderly k)

theorem Sound.begin_ (h : a.Sound) (tallies : logic.Tallies) (idle : ¬a.Busy k)
    (plain : '.' ∉ k.ns.toList) : (a.setPass k (Pass.run logic .inStore wait k)).Sound := by
  refine ⟨h.keyed, fun l busy => ?_, fun l plain' => ?_⟩
  · rcases busy_setPass busy with rfl | busy
    · exact plain
    · exact h.plain l busy
  · rw [passes_setPass]
    split
    · rename_i same
      subst same
      exact ⟨.even, Pass.accounts_run tallies wait l, h.bears_of_counted plain idle⟩
    · exact h.square l plain'

theorem Sound.ask (h : a.Sound) {q : Request S} {r : q.Answer} {next : q.Answer → Pass S Outcome}
    (at_ : a.passes k = .ask q next) (answered : Answered a q r b) :
    (b.setPass k (next r)).Sound := by
  have plain := h.plain k ⟨q, next, at_⟩
  obtain ⟨g, accounts, holds⟩ := h.square k plain
  rw [at_] at accounts
  obtain ⟨keeps, goes⟩ := accounts
  refine ⟨answered.keyed h.keyed, fun l busy => ?_, fun l plain' => ?_⟩
  · rcases busy_setPass busy with rfl | busy
    · exact plain
    · refine h.plain l ?_
      rwa [Busy, ← answered.passes]
  · rw [passes_setPass]
    split
    · rename_i same
      subst same
      exact ⟨_, goes r _ ⟨answered.apt h.keyed, rfl⟩, answered.learned h.keyed keeps holds⟩
    · rename_i other
      obtain ⟨g, accounts, holds⟩ := h.square l plain'
      refine ⟨g, answered.passes ▸ accounts, holds.stay ?_ ?_⟩
      · exact answered.bears h.keyed keeps.1 other
      · -- the pass counts under another identity
        have pacer : (b.setPass k (next r)).pacer = _ := answered.pacer
        rw [pacer]
        cases asked : q.toPacer? with
        | none => rfl
        | some x =>
          refine Pacer.count?_serve_of_ne fun same => other ?_
          exact Key.identity_injective plain' plain (same.symm.trans (keeps.2 x asked))

theorem Sound.step (h : a.Sound) (tallies : logic.Tallies) (step : Step logic wait a m b)
    (orderly : a.Orderly m) : b.Sound := by
  cases step with
  | client => exact h.client orderly
  | begin_ idle => exact h.begin_ tallies idle orderly
  | ask at_ answered => exact h.ask at_ answered
  | cut => exact orderly.elim

/-! ### Runs -/

theorem Run.sound (run : Run logic wait Orderly a tr b) (tallies : logic.Tallies) (h : a.Sound) :
    b.Sound := by
  induction run with
  | here => exact h
  | step _ step orderly ih => exact ih.step tallies step orderly

theorem Run.trans {us : List (Move S)} {c : Workshop S} (run : Run logic wait allowed a tr b)
    (run' : Run logic wait allowed b us c) : Run logic wait allowed a (tr ++ us) c := by
  induction run' with
  | here => rwa [List.append_nil]
  | step _ step ok ih =>
    rw [← List.append_assoc]
    exact .step ih step ok

theorem Run.shortWait (run : Run logic wait allowed a tr b) :
    b.pacer.shortWait = a.pacer.shortWait := by
  induction run with
  | here => rfl
  | @step tr b m c _ step _ ih =>
    rw [step.pacer, ← ih]
    cases m.request? with
    | none => rfl
    | some r => exact b.pacer.shortWait_serve r

theorem Sound.uncounted (h : a.Sound) (step : Step logic wait a m b) (plain : '.' ∉ k.ns.toList)
    (other : m ≠ .ask k (.logic (.nextDelay k.identity)))
    (uncounted : a.pacer.count? k.identity = none) : b.pacer.count? k.identity = none := by
  cases step with
  | client | begin_ | cut => exact uncounted
  | @ask l q r b next at_ answered =>
    have plain' := h.plain l ⟨q, next, at_⟩
    obtain ⟨g, accounts, -⟩ := h.square l plain'
    rw [at_] at accounts
    obtain ⟨⟨-, identity⟩, -⟩ := accounts
    have pacer : (b.setPass l (next r)).pacer = b.pacer := rfl
    rw [pacer]
    cases answered with
    | nextDelay i =>
      have own : i = l.identity := identity _ rfl
      rw [← uncounted]
      refine Pacer.count?_nextDelay_of_ne fun same => other ?_
      obtain rfl : l = k := Key.identity_injective plain' plain (own.symm.trans same)
      rw [own]
    | forget i =>
      by_cases same : i = k.identity
      · rw [same]
        exact Pacer.count?_forget_self
      · exact (Pacer.count?_forget_of_ne same).trans uncounted
    | get | update | updateStatus | clock | organizations | sleep | entered => exact uncounted

theorem Run.uncounted (run : Run logic wait Orderly a tr b) (tallies : logic.Tallies) (h : a.Sound)
    (plain : '.' ∉ k.ns.toList) (unasked : .ask k (.logic (.nextDelay k.identity)) ∉ tr)
    (uncounted : a.pacer.count? k.identity = none) : b.pacer.count? k.identity = none := by
  induction run with
  | here => exact uncounted
  | step run step _ ih =>
    simp only [List.mem_append, List.mem_singleton, not_or] at unasked
    exact (run.sound tallies h).uncounted step plain (Ne.symm unasked.2) (ih unasked.1)

/-- What is counted has its finalizer or is being worked on; and once the object is gone, or has
lost its finalizer, and no pass is left, the first wait for the key is short again. -/
theorem no_counter_leaked {store : Store S} {threshold : UInt32} {short steady : Span}
    (tallies : logic.Tallies) (keyed : store.Keyed) (plain : '.' ∉ k.ns.toList)
    (run : Run logic wait Orderly (start store (.new threshold short steady)) tr a) :
    ((a.pacer.count? k.identity).isSome →
      (∃ o, a.store.get? k = some o ∧ o.hasOwnFinalizer = true) ∨ a.Busy k) ∧
    ((∀ o, a.store.get? k = some o → o.hasOwnFinalizer = false) → ¬a.Busy k →
      ∀ us b, Run logic wait Orderly a us b →
        .ask k (.logic (.nextDelay k.identity)) ∉ us →
        b.pacer.count? k.identity = none ∧ (b.pacer.nextDelay k.identity).1 = short) := by
  have sound := run.sound tallies (sound_start keyed threshold short steady)
  refine ⟨fun counted => ?_, fun bare idle us b run' unasked => ?_⟩
  · by_cases busy : a.Busy k
    · exact .inr busy
    · exact .inl (sound.bears_of_counted plain busy counted)
  · have forgotten : a.pacer.count? k.identity = none := by
      by_contra counted
      obtain ⟨o, stored, own⟩ :=
        sound.bears_of_counted plain idle (Option.isSome_iff_ne_none.2 counted)
      rw [bare o stored] at own
      cases own
    have uncounted := run'.uncounted tallies sound plain unasked forgotten
    refine ⟨uncounted, ?_⟩
    have first : (b.pacer.count? k.identity).getD 0 ≤ b.pacer.threshold := by
      rw [uncounted]
      exact UInt32.zero_le
    rw [Pacer.nextDelay_of_le first]
    exact run'.shortWait.trans run.shortWait

theorem no_counter_leaked_reborn :
    ∃ (tr us vs : List (Move OrganizationSpec)) (a b c : Workshop OrganizationSpec),
      Run Organization.logic ⟨0⟩ Orderly (start .empty (.new 0 ⟨1⟩ ⟨60⟩)) tr a ∧
      (a.pacer.count? "a.b").isSome ∧
      ((∃ o, a.store.get? ⟨"a", "b"⟩ = some o ∧ o.hasOwnFinalizer = true) ∨ a.Busy ⟨"a", "b"⟩) ∧
      Run Organization.logic ⟨0⟩ Orderly a us b ∧ b.store.get? ⟨"a", "b"⟩ = none ∧
      Run Organization.logic ⟨0⟩ Orderly b vs c ∧ (c.store.get? ⟨"a", "b"⟩).isSome ∧
      (c.pacer.nextDelay "a.b").1 = ⟨1⟩ := by
  have calm (w : Write OrganizationSpec) (hw : ∀ o, w ≠ .update o) (a : Workshop OrganizationSpec) :
      a.Orderly (.client w) :=
    fun _ _ _ _ ⟨o, ho, _⟩ => hw o ho
  have plain : '.' ∉ "a".toList := by decide
  have idle {a : Workshop OrganizationSpec} {r} (h : a.passes ⟨"a", "b"⟩ = .done r) :
      ¬a.Busy ⟨"a", "b"⟩ := by
    rintro ⟨q, n, asks⟩
    cases h.symm.trans asks
  have create (u : Uid) (a : Workshop OrganizationSpec) :
      Run Organization.logic ⟨0⟩ Orderly a [.client (.create u (.new "a" "b"))]
        (a.write (.create u (.new "a" "b"))) :=
    .step .here (.client _) (calm _ (by simp) a)
  have delete {s tr} {a : Workshop OrganizationSpec}
      (_ : Run Organization.logic ⟨0⟩ Orderly s tr a) :
      Run Organization.logic ⟨0⟩ Orderly a [.client (.delete .epoch ⟨"a", "b"⟩)]
        (a.write (.delete .epoch ⟨"a", "b"⟩)) :=
    .step .here (.client _) (calm _ (by simp) a)
  -- every step of a pass is run by `rfl`
  have begun := (create ⟨1⟩ (start .empty (.new 0 ⟨1⟩ ⟨60⟩))).step (.begin_ (idle rfl)) plain
  have told := begun.step (.ask (k := ⟨"a", "b"⟩) rfl (.get ⟨"a", "b"⟩)) trivial
  have guarded := told.step (.ask (k := ⟨"a", "b"⟩) rfl (.update _)) trivial
  have applied := guarded.step (.ask (k := ⟨"a", "b"⟩) rfl (.clock .epoch)) trivial
  have written := applied.step (.ask (k := ⟨"a", "b"⟩) rfl (.updateStatus _)) trivial
  have counted := written.step (.ask (k := ⟨"a", "b"⟩) rfl (.nextDelay "a.b")) trivial
  have begun := (delete counted).step (.begin_ (idle rfl)) plain
  have told := begun.step (.ask (k := ⟨"a", "b"⟩) rfl (.get ⟨"a", "b"⟩)) trivial
  have released := told.step (.ask (k := ⟨"a", "b"⟩) rfl (.update _)) trivial
  have gone := released.step (.ask (k := ⟨"a", "b"⟩) rfl (.forget "a.b")) trivial
  obtain ⟨covered, -⟩ :=
    no_counter_leaked Organization.tallies Store.keyed_empty (k := ⟨"a", "b"⟩) plain counted
  obtain ⟨-, fresh⟩ := no_counter_leaked Organization.tallies Store.keyed_empty
    (k := ⟨"a", "b"⟩) plain (counted.trans gone)
  have short := (fresh (fun o ho => by cases ho) (idle rfl) _ _ (create ⟨2⟩ _) (by simp)).2
  exact ⟨_, _, _, _, _, _, counted, rfl, covered rfl, gone, rfl, create ⟨2⟩ _, rfl, short⟩

end Workshop
end Tenancy
