import Mathlib.Data.UInt
import Tenancy.Pacer

/-! Pacers under requests for any identities. Every identity has a counter of its own, which stops
one above the threshold. Main statement: what a pacer answers about an identity follows from how
often the wait was asked for since the identity was forgotten, whatever was asked about others. -/

namespace Tenancy

namespace Pacer

/-! ### Counters -/

variable {p : Pacer} {i j : String}

theorem nextDelay_of_le (h : (p.count? i).getD 0 ≤ p.threshold) : p.nextDelay i =
    (p.shortWait, { p with counts := p.counts.insert i ((p.count? i).getD 0 + 1) }) :=
  if_pos h

theorem nextDelay_of_lt (h : p.threshold < (p.count? i).getD 0) :
    p.nextDelay i = (p.steadyWait, p) :=
  if_neg (UInt32.not_le.2 h)

theorem count?_nextDelay_of_ne (h : i ≠ j) : (p.nextDelay i).2.count? j = p.count? j := by
  by_cases le : (p.count? i).getD 0 ≤ p.threshold
  · rw [nextDelay_of_le le]
    simp only [count?, Std.ExtTreeMap.getElem?_insert, Std.LawfulEqCmp.compare_eq_iff_eq, if_neg h]
  · rw [nextDelay_of_lt (UInt32.not_le.1 le)]

theorem count?_forget_self : (p.forget i).count? i = none := by
  simp only [count?, forget, Std.ExtTreeMap.getElem?_erase_self]

theorem count?_forget_of_ne (h : i ≠ j) : (p.forget i).count? j = p.count? j := by
  simp only [count?, forget, Std.ExtTreeMap.getElem?_erase, Std.LawfulEqCmp.compare_eq_iff_eq,
    if_neg h]

section

variable (p : Pacer) (i : String)

theorem threshold_nextDelay : (p.nextDelay i).2.threshold = p.threshold := by
  unfold nextDelay
  dsimp only
  split <;> rfl

theorem shortWait_nextDelay : (p.nextDelay i).2.shortWait = p.shortWait := by
  unfold nextDelay
  dsimp only
  split <;> rfl

theorem steadyWait_nextDelay : (p.nextDelay i).2.steadyWait = p.steadyWait := by
  unfold nextDelay
  dsimp only
  split <;> rfl

end

/-! ### Requests -/

inductive Request where
  | nextDelay (identity : String)
  | count (identity : String)
  | forget (identity : String)
deriving DecidableEq

inductive Reply where
  | delay (d : Span)
  | count (n : Option UInt32)
  | forgotten
deriving DecidableEq

namespace Request

def identity : Request → String
  | nextDelay i | count i | forget i => i

end Request

def serve (p : Pacer) : Request → Reply × Pacer
  | .nextDelay i => (.delay (p.nextDelay i).1, (p.nextDelay i).2)
  | .count i => (.count (p.count? i), p)
  | .forget i => (.forgotten, p.forget i)

theorem count?_serve_of_ne {r : Request} (h : r.identity ≠ j) :
    (p.serve r).2.count? j = p.count? j := by
  cases r with
  | nextDelay => exact count?_nextDelay_of_ne h
  | forget => exact count?_forget_of_ne h
  | count => rfl

theorem shortWait_serve (p : Pacer) (r : Request) : (p.serve r).2.shortWait = p.shortWait := by
  cases r with
  | nextDelay i => exact p.shortWait_nextDelay i
  | forget | count => rfl

/-- How often the wait of an identity was asked for since the identity was last forgotten. -/
def asked (i : String) (rs : List Request) : Nat :=
  (rs.reverse.takeWhile (· != .forget i)).count (.nextDelay i)

theorem asked_forget (i : String) (rs : List Request) : asked i (rs ++ [.forget i]) = 0 := by
  simp [asked]

theorem asked_nextDelay (i : String) (rs : List Request) :
    asked i (rs ++ [.nextDelay i]) = asked i rs + 1 := by
  simp [asked]

theorem asked_concat {i : String} {r : Request} (hn : r ≠ .nextDelay i) (hf : r ≠ .forget i)
    (rs : List Request) : asked i (rs ++ [r]) = asked i rs := by
  simp [asked, hn, hf]

theorem asked_of_identity_ne {i : String} {r : Request} (h : r.identity ≠ i) (rs : List Request) :
    asked i (rs ++ [r]) = asked i rs := by
  refine asked_concat ?_ ?_ rs <;> (rintro rfl; exact h rfl)

theorem asked_filter (i : String) (rs : List Request) :
    asked i (rs.filter (·.identity == i)) = asked i rs := by
  induction rs using List.reverseRecOn with
  | nil => rfl
  | append_singleton rs r ih =>
    by_cases h : r.identity = i
    · have kept : (rs ++ [r]).filter (·.identity == i) = rs.filter (·.identity == i) ++ [r] := by
        simp [h]
      rw [kept]
      by_cases hf : r = .forget i
      · rw [hf, asked_forget, asked_forget]
      · by_cases hn : r = .nextDelay i
        · rw [hn, asked_nextDelay, asked_nextDelay, ih]
        · rw [asked_concat hn hf, asked_concat hn hf, ih]
    · have dropped : (rs ++ [r]).filter (·.identity == i) = rs.filter (·.identity == i) := by
        simp [h]
      rw [dropped, asked_of_identity_ne h, ih]

def tally (threshold : UInt32) (n : Nat) : Option Nat :=
  if n = 0 then none else some (min n (threshold.toNat + 1))

structure Counts (limit : UInt32) (short steady : Span) (rs : List Request) (p : Pacer) : Prop where
  threshold : p.threshold = limit
  shortWait : p.shortWait = short
  steadyWait : p.steadyWait = steady
  count : ∀ i, (p.count? i).map (·.toNat) = tally limit (asked i rs)

variable {threshold : UInt32} {short steady : Span} {rs : List Request} {r : Request}

theorem counts_new : Counts threshold short steady [] (.new threshold short steady) := by
  refine ⟨rfl, rfl, rfl, fun i => ?_⟩
  have none_yet : (new threshold short steady).count? i = none := Std.ExtTreeMap.getElem?_empty
  rw [none_yet]
  rfl

namespace Counts

variable (h : Counts threshold short steady rs p)
include h

theorem toNat_count (i : String) :
    ((p.count? i).getD 0).toNat = min (asked i rs) (threshold.toNat + 1) := by
  have count := h.count i
  unfold tally at count
  cases hc : p.count? i with
  | none =>
    rw [hc] at count
    split at count
    · rename_i never
      rw [never]
      simp
    · cases count
  | some n =>
    rw [hc] at count
    split at count
    · cases count
    · exact Option.some.inj count

theorem le_threshold_iff (i : String) :
    (p.count? i).getD 0 ≤ p.threshold ↔ asked i rs ≤ threshold.toNat := by
  have count := h.toNat_count i
  rw [UInt32.le_iff_toNat_le, h.threshold, count]
  omega

theorem fst_nextDelay (i : String) :
    (p.nextDelay i).1 = if asked i rs ≤ threshold.toNat then short else steady := by
  by_cases le : (p.count? i).getD 0 ≤ p.threshold
  · rw [nextDelay_of_le le, if_pos ((h.le_threshold_iff i).1 le)]
    exact h.shortWait
  · rw [nextDelay_of_lt (UInt32.not_le.1 le), if_neg (mt (h.le_threshold_iff i).2 le)]
    exact h.steadyWait

theorem count_nextDelay (room : threshold.toNat < 2 ^ 32 - 1) (i : String) :
    ((p.nextDelay i).2.count? i).map (·.toNat) = tally threshold (asked i rs + 1) := by
  have count := h.toNat_count i
  by_cases le : (p.count? i).getD 0 ≤ p.threshold
  · have few := (h.le_threshold_iff i).1 le
    rw [nextDelay_of_le le]
    simp only [count?, Std.ExtTreeMap.getElem?_insert_self, Option.map_some, tally]
    rw [if_neg (Nat.succ_ne_zero _), UInt32.toNat_add]
    simp only [count?] at count
    rw [count]
    congr 1
    have : (1 : UInt32).toNat = 1 := rfl
    omega
  · have many := mt (h.le_threshold_iff i).2 le
    rw [nextDelay_of_lt (UInt32.not_le.1 le), h.count i]
    unfold tally
    rw [if_neg (by omega), if_neg (by omega)]
    congr 1
    omega

theorem nextDelay (room : threshold.toNat < 2 ^ 32 - 1) (i : String) :
    Counts threshold short steady (rs ++ [.nextDelay i]) (p.nextDelay i).2 := by
  refine ⟨(p.threshold_nextDelay i).trans h.threshold, (p.shortWait_nextDelay i).trans h.shortWait,
    (p.steadyWait_nextDelay i).trans h.steadyWait, fun j => ?_⟩
  by_cases hj : i = j
  · subst hj
    rw [asked_nextDelay]
    exact h.count_nextDelay room i
  · have other : (Request.nextDelay i).identity ≠ j := hj
    rw [count?_nextDelay_of_ne hj, asked_of_identity_ne other]
    exact h.count j

theorem forget (i : String) :
    Counts threshold short steady (rs ++ [.forget i]) (p.forget i) := by
  refine ⟨h.threshold, h.shortWait, h.steadyWait, fun j => ?_⟩
  by_cases hj : i = j
  · subst hj
    rw [count?_forget_self, asked_forget]
    rfl
  · have other : (Request.forget i).identity ≠ j := hj
    rw [count?_forget_of_ne hj, asked_of_identity_ne other]
    exact h.count j

theorem serve (room : threshold.toNat < 2 ^ 32 - 1) (r : Request) :
    Counts threshold short steady (rs ++ [r]) (p.serve r).2 := by
  cases r with
  | nextDelay i => exact h.nextDelay room i
  | forget i => exact h.forget i
  | count i =>
    refine ⟨h.threshold, h.shortWait, h.steadyWait, fun j => ?_⟩
    rw [asked_concat (by simp) (by simp)]
    exact h.count j

end Counts
end Pacer

namespace PacerLine

open Pacer (Request Reply Counts asked tally)

def serve (l : PacerLine) : Request → Reply × PacerLine
  | .nextDelay i => (.delay (l.nextDelay i).1, (l.nextDelay i).2)
  | .count i => (.count (l.count? i), l)
  | .forget i => (.forgotten, l.forget i)

def after (threshold : UInt32) (short steady : Span) (rs : List Request) : PacerLine :=
  rs.foldl (fun l r => (l.serve r).2) ⟨some (.new threshold short steady), steady⟩

theorem serve_some (p : Pacer) (steady : Span) (r : Request) :
    (⟨some p, steady⟩ : PacerLine).serve r = ((p.serve r).1, ⟨some (p.serve r).2, steady⟩) := by
  cases r <;> rfl

variable {threshold : UInt32} (short steady : Span)

/-- The pacer runs on, and what holds of a new one and is kept by each request holds of it. -/
theorem holds_after {Holds : List Request → Pacer → Prop}
    (first : Holds [] (.new threshold short steady))
    (next : ∀ rs p r, Holds rs p → Holds (rs ++ [r]) (p.serve r).2) (rs : List Request) :
    ∃ p, after threshold short steady rs = ⟨some p, steady⟩ ∧ Holds rs p := by
  induction rs using List.reverseRecOn with
  | nil => exact ⟨_, rfl, first⟩
  | append_singleton rs r ih =>
    obtain ⟨p, hp, holds⟩ := ih
    refine ⟨(p.serve r).2, ?_, next rs p r holds⟩
    have served : after threshold short steady (rs ++ [r]) =
        ((after threshold short steady rs).serve r).2 := List.foldl_append ..
    rw [served, hp, serve_some]

theorem counts_after (room : threshold.toNat < 2 ^ 32 - 1) (rs : List Request) :
    ∃ p, after threshold short steady rs = ⟨some p, steady⟩ ∧ Counts threshold short steady rs p :=
  holds_after short steady Pacer.counts_new (fun _ _ r counts => counts.serve room r) rs

/-- Of the requests for the wait of an identity since it was last forgotten the first ones, one more
than the threshold says, are answered with the short wait and all others with the steady one; the
count is their number as long as it is not past this bound. Requests for others change nothing. -/
theorem answers_by_identity (room : threshold.toNat < 2 ^ 32 - 1) :
    (∀ rs i, ((after threshold short steady rs).serve (.nextDelay i)).1 =
      .delay (if asked i rs + 1 ≤ threshold.toNat + 1 then short else steady)) ∧
    (∀ rs i, ∃ n, ((after threshold short steady rs).serve (.count i)).1 = .count n ∧
      n.map (·.toNat) =
        if asked i rs = 0 then none else some (min (asked i rs) (threshold.toNat + 1))) ∧
    ∀ rs qs r, rs.filter (·.identity == r.identity) = qs.filter (·.identity == r.identity) →
      ((after threshold short steady rs).serve r).1 =
        ((after threshold short steady qs).serve r).1 := by
  have delays (rs : List Request) (i : String) :
      ((after threshold short steady rs).serve (.nextDelay i)).1 =
        .delay (if asked i rs + 1 ≤ threshold.toNat + 1 then short else steady) := by
    obtain ⟨p, hp, counts⟩ := counts_after short steady room rs
    rw [hp, serve_some]
    simp only [Nat.add_le_add_iff_right]
    exact congrArg Reply.delay (counts.fst_nextDelay i)
  have count (rs : List Request) (i : String) :
      ∃ n, ((after threshold short steady rs).serve (.count i)).1 = .count n ∧
        n.map (·.toNat) = tally threshold (asked i rs) := by
    obtain ⟨p, hp, counts⟩ := counts_after short steady room rs
    rw [hp, serve_some]
    exact ⟨p.count? i, rfl, counts.count i⟩
  refine ⟨delays, count, fun rs qs r same => ?_⟩
  have asked_eq : asked r.identity rs = asked r.identity qs := by
    rw [← Pacer.asked_filter, same, Pacer.asked_filter]
  cases r with
  | nextDelay i =>
    have asked_eq : asked i rs = asked i qs := asked_eq
    rw [delays, delays, asked_eq]
  | count i =>
    have asked_eq : asked i rs = asked i qs := asked_eq
    obtain ⟨n, hn, tallied⟩ := count rs i
    obtain ⟨m, hm, tallied'⟩ := count qs i
    have equal : n.map (·.toNat) = m.map (·.toNat) := by rw [tallied, tallied', asked_eq]
    rw [hn, hm, Option.map_injective (fun _ _ => UInt32.toNat_inj.1) equal]
  | forget i => rfl

theorem answers_by_identity_forgotten :
    ((after 1 ⟨1⟩ ⟨60⟩ [.nextDelay "a", .forget "a", .nextDelay "a", .nextDelay "b",
      .nextDelay "a"]).serve (.nextDelay "a")).1 = .delay ⟨60⟩ ∧
    ((after 1 ⟨1⟩ ⟨60⟩ [.nextDelay "a", .forget "a", .nextDelay "a", .nextDelay "b",
      .nextDelay "a"]).serve (.nextDelay "b")).1 =
      ((after 1 ⟨1⟩ ⟨60⟩ [.nextDelay "b"]).serve (.nextDelay "b")).1 := by
  obtain ⟨delays, -, apart⟩ := @answers_by_identity 1 ⟨1⟩ ⟨60⟩ (by decide)
  exact ⟨delays _ "a", apart _ _ _ (by decide)⟩

end PacerLine
end Tenancy
