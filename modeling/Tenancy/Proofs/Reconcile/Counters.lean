import Tenancy.Proofs.Reconcile.Workshop

/-! Counters of different keys. What the pacer says of one key does not depend on the passes over
another, unless both have one identity; and then one is the other with its dot moved. -/

namespace Tenancy

namespace Pacer

variable {p q : Pacer} {i : String} {r : Request}

def view (p : Pacer) (i : String) : UInt32 × Span × Span × Option UInt32 :=
  (p.threshold, p.shortWait, p.steadyWait, p.count? i)

theorem count?_nextDelay_self (p : Pacer) (i : String) : (p.nextDelay i).2.count? i =
    if (p.count? i).getD 0 ≤ p.threshold then some ((p.count? i).getD 0 + 1) else p.count? i := by
  split
  · rename_i few
    rw [nextDelay_of_le few]
    exact Std.ExtTreeMap.getElem?_insert_self
  · rename_i many
    rw [nextDelay_of_lt (UInt32.not_le.1 many)]

theorem fst_nextDelay (p : Pacer) (i : String) : (p.nextDelay i).1 =
    if (p.count? i).getD 0 ≤ p.threshold then p.shortWait else p.steadyWait := by
  split
  · rename_i few
    rw [nextDelay_of_le few]
  · rename_i many
    rw [nextDelay_of_lt (UInt32.not_le.1 many)]

theorem view_serve_of_ne (h : r.identity ≠ i) : (p.serve r).2.view i = p.view i := by
  unfold view
  rw [count?_serve_of_ne h]
  cases r with
  | nextDelay j =>
    have threshold := p.threshold_nextDelay j
    have short := p.shortWait_nextDelay j
    have steady := p.steadyWait_nextDelay j
    simp only [serve, threshold, short, steady]
  | forget | count => rfl

theorem serve_congr (same : p.view r.identity = q.view r.identity) :
    (p.serve r).1 = (q.serve r).1 ∧
      (p.serve r).2.view r.identity = (q.serve r).2.view r.identity := by
  simp only [view, Prod.mk.injEq] at same
  obtain ⟨threshold, short, steady, count⟩ := same
  cases r with
  | nextDelay i =>
    have count : p.count? i = q.count? i := count
    simp only [serve, Request.identity, view, fst_nextDelay, count?_nextDelay_self,
      threshold_nextDelay, shortWait_nextDelay, steadyWait_nextDelay, threshold, short, steady,
      count, and_self]
  | count i =>
    have count : p.count? i = q.count? i := count
    simp only [serve, Request.identity, view, threshold, short, steady, count, and_self]
  | forget i =>
    simp only [serve, Request.identity, view, count?_forget_self]
    exact ⟨trivial, congrArg₂ _ threshold (congrArg₂ _ short (congrArg₂ _ steady rfl))⟩

theorem view_serve_congr (same : p.view i = q.view i) (r : Request) :
    (p.serve r).2.view i = (q.serve r).2.view i := by
  by_cases h : r.identity = i
  · subst h
    exact (serve_congr same).2
  · rw [view_serve_of_ne h, view_serve_of_ne h, same]

def serveAll (p : Pacer) (rs : List Request) : Pacer := rs.foldl (fun p r => (p.serve r).2) p

theorem serveAll_append (p : Pacer) (rs qs : List Request) :
    p.serveAll (rs ++ qs) = (p.serveAll rs).serveAll qs := List.foldl_append ..

end Pacer

namespace Workshop

variable {S : Type} {k l : Key}

def Move.key? : Move S → Option Key
  | begin_ k | ask k _ | cut k => some k
  | client _ => none

def requests (tr : List (Move S)) : List Pacer.Request := tr.filterMap Move.request?

def without (l : Key) (tr : List (Move S)) : List (Move S) := tr.filter (·.key? != some l)

theorem requests_without_concat (l : Key) (tr : List (Move S)) (m : Move S) :
    requests (without l (tr ++ [m])) = requests (without l tr) ++
      if m.key? = some l then [] else m.request?.toList := by
  unfold requests without
  rw [List.filter_append, List.filterMap_append]
  split
  · rename_i own
    simp [own]
  · rename_i other
    cases asked : m.request? <;> simp [other, asked]

variable [ResourceKind S] {logic : Logic S} {wait : Span}
  {allowed : Workshop S → Move S → Prop} {a b : Workshop S} {m : Move S} {tr : List (Move S)}

structure Tended (a : Workshop S) : Prop where
  keyed : a.store.Keyed
  accounts : ∀ k, ∃ g : Grip, Pass.Accounts k (a.passes k) Pass.Squares g

theorem Tended.setPass (h : a.Tended) {p : Pass S Outcome}
    (accounts : ∃ g : Grip, Pass.Accounts k p Pass.Squares g) : (a.setPass k p).Tended := by
  refine ⟨h.keyed, fun l => ?_⟩
  rw [passes_setPass]
  split
  · rename_i same
    exact same ▸ accounts
  · exact h.accounts l

theorem Tended.step (h : a.Tended) (tallies : logic.Tallies) (step : Step logic wait a m b) :
    b.Tended := by
  cases step with
  | client w => exact ⟨(Store.turn_write h.keyed w).keyed h.keyed, h.accounts⟩
  | begin_ => exact h.setPass ⟨.even, Pass.accounts_run tallies wait _⟩
  | cut => exact h.setPass ⟨.even, Grip.noConfusion⟩
  | @ask k q r b next at_ answered =>
    obtain ⟨g, accounts⟩ := h.accounts k
    rw [at_] at accounts
    have tended : b.Tended := ⟨answered.keyed h.keyed, answered.passes ▸ h.accounts⟩
    exact tended.setPass ⟨_, accounts.2 r _ ⟨answered.apt h.keyed, rfl⟩⟩

theorem Tended.identity (h : a.Tended) (step : Step logic wait a m b) {r : Pacer.Request}
    (asked : m.request? = some r) : ∃ k, m.key? = some k ∧ r.identity = k.identity := by
  cases step with
  | client | begin_ | cut => cases asked
  | @ask k q _ _ next at_ =>
    obtain ⟨g, accounts⟩ := h.accounts k
    rw [at_] at accounts
    exact ⟨k, rfl, accounts.1.2 r asked⟩

theorem Run.tended (run : Run logic wait allowed a tr b) (tallies : logic.Tallies) (h : a.Tended) :
    b.Tended := by
  induction run with
  | here => exact h
  | step _ step _ ih => exact ih.step tallies step

/-- What is seen of a key is what its own passes have made of it, and those of its namesakes. -/
theorem Run.view (run : Run logic wait allowed a tr b) (tallies : logic.Tallies) (h : a.Tended)
    (apart : k.identity ≠ l.identity) :
    b.pacer.view k.identity = (a.pacer.serveAll (requests (without l tr))).view k.identity := by
  induction run with
  | here => rfl
  | @step tr b m c run step _ ih =>
    rw [requests_without_concat, Pacer.serveAll_append, step.pacer]
    cases asked : m.request? with
    | none =>
      simp only [Option.toList_none, ite_self]
      exact ih
    | some r =>
      obtain ⟨x, key, identity⟩ := (run.tended tallies h).identity step asked
      by_cases own : x = l
      · subst own
        have other : r.identity ≠ k.identity := fun same => apart (same.symm.trans identity)
        rw [if_pos key]
        exact (Pacer.view_serve_of_ne other).trans ih
      · rw [if_neg (by simpa [key] using own)]
        exact Pacer.view_serve_congr ih r

/-- Two keys have the same identity exactly if one is the other with its dot moved; and if they have
not, all waits and counts of the one are as if no pass over the other had asked for any. -/
theorem counters_apart {store : Store S} {pacer : Pacer} (tallies : logic.Tallies)
    (keyed : store.Keyed) (different : k ≠ l)
    (run : Run logic wait allowed (start store pacer) tr a) :
    (k.identity = l.identity ↔ k.Shifts l ∨ l.Shifts k) ∧
    (k.identity ≠ l.identity → ∀ r : Pacer.Request, r.identity = k.identity →
      (a.pacer.serve r).1 = ((pacer.serveAll (requests (without l tr))).serve r).1) := by
  refine ⟨?_, fun apart r own => ?_⟩
  · rw [Key.identity_eq_iff]
    exact or_iff_right different
  · have tended : (start store pacer).Tended := ⟨keyed, fun _ => ⟨.even, Grip.noConfusion⟩⟩
    have same := run.view tallies tended apart
    rw [← own] at same
    exact (Pacer.serve_congr same).1

theorem counted_once : ∃ (tr : List (Move OrganizationSpec)) (a : Workshop OrganizationSpec),
    Run Organization.logic ⟨0⟩ (fun _ _ => True) (start .empty (.new 0 ⟨1⟩ ⟨60⟩)) tr a ∧
    requests (without ⟨"a", "b.c"⟩ tr) = [] ∧
    a.pacer = ((Pacer.new 0 ⟨1⟩ ⟨60⟩).nextDelay "a.b.c").2 := by
  have created : Run Organization.logic ⟨0⟩ (fun _ _ => True)
      (start .empty (.new 0 ⟨1⟩ ⟨60⟩)) _ _ :=
    Run.here.step (.client (.create ⟨1⟩ (.new "a" "b.c"))) trivial
  have idle : ¬Busy ((start Store.empty (Pacer.new 0 ⟨1⟩ ⟨60⟩)).write
      (.create ⟨1⟩ (.new "a" "b.c") : Write OrganizationSpec)) ⟨"a", "b.c"⟩ := by
    rintro ⟨q, next, asks⟩
    cases asks
  have begun := created.step (.begin_ idle) trivial
  have told := begun.step (.ask (k := ⟨"a", "b.c"⟩) rfl (.get ⟨"a", "b.c"⟩)) trivial
  have guarded := told.step (.ask (k := ⟨"a", "b.c"⟩) rfl (.update _)) trivial
  have applied := guarded.step (.ask (k := ⟨"a", "b.c"⟩) rfl (.clock .epoch)) trivial
  have written := applied.step (.ask (k := ⟨"a", "b.c"⟩) rfl (.updateStatus _)) trivial
  have counted := written.step (.ask (k := ⟨"a", "b.c"⟩) rfl (.nextDelay "a.b.c")) trivial
  exact ⟨_, _, counted, rfl, rfl⟩

theorem counters_apart_plain :
    ∃ (tr : List (Move OrganizationSpec)) (a : Workshop OrganizationSpec),
      Run Organization.logic ⟨0⟩ (fun _ _ => True) (start .empty (.new 0 ⟨1⟩ ⟨60⟩)) tr a ∧
      (⟨"a", "b"⟩ : Key) ≠ ⟨"a", "b.c"⟩ ∧
      (a.pacer.serve (.nextDelay "a.b")).1 = .delay ⟨1⟩ := by
  obtain ⟨tr, a, run, others, -⟩ := counted_once
  have different : (⟨"a", "b"⟩ : Key) ≠ ⟨"a", "b.c"⟩ := by decide
  obtain ⟨-, apart⟩ := counters_apart Organization.tallies Store.keyed_empty different run
  have same := apart (by decide) (.nextDelay "a.b") rfl
  rw [others] at same
  exact ⟨tr, a, run, different, same.trans rfl⟩

/-- Of two keys that differ by the place of their dot, the pass over the one is counted for the
other, whose first wait is not short any more. -/
theorem counters_shared :
    ∃ (tr : List (Move OrganizationSpec)) (a : Workshop OrganizationSpec),
      (⟨"a.b", "c"⟩ : Key) ≠ ⟨"a", "b.c"⟩ ∧ Key.identity ⟨"a.b", "c"⟩ = Key.identity ⟨"a", "b.c"⟩ ∧
      Run Organization.logic ⟨0⟩ (fun _ _ => True) (start .empty (.new 0 ⟨1⟩ ⟨60⟩)) tr a ∧
      requests (without ⟨"a", "b.c"⟩ tr) = [] ∧
      (a.pacer.serve (.nextDelay (Key.identity ⟨"a.b", "c"⟩))).1 = .delay ⟨60⟩ ∧
      ((Pacer.new 0 ⟨1⟩ ⟨60⟩).serve (.nextDelay (Key.identity ⟨"a.b", "c"⟩))).1 = .delay ⟨1⟩ := by
  obtain ⟨tr, a, run, others, pacer⟩ := counted_once
  refine ⟨tr, a, by decide, by decide, run, others, ?_, rfl⟩
  rw [pacer]
  rfl

end Workshop
end Tenancy
