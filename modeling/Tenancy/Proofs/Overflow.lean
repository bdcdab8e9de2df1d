import Tenancy.Proofs.Pacer
import Tenancy.Settings

/-! The range of the counters. A counter is raised past the threshold and no further, which takes it
out of its 32 bits if the threshold is the highest number that they hold. Main statement: a counter
is at most one above the threshold, and no threshold but the highest lets it overflow; with that one
it does at every request that completes another 2 ^ 32. -/

namespace Tenancy
namespace Pacer

/-- The next request for the wait raises a counter that is at the end of its range. -/
def Overflows (p : Pacer) (i : String) : Prop :=
  (p.count? i).getD 0 ≤ p.threshold ∧ 2 ^ 32 ≤ ((p.count? i).getD 0).toNat + 1

variable {p : Pacer} {threshold : UInt32} {rs : List Request}

theorem overflows_iff {i : String} : p.Overflows i ↔
    p.threshold.toNat = 2 ^ 32 - 1 ∧ ((p.count? i).getD 0).toNat = 2 ^ 32 - 1 := by
  have counted := ((p.count? i).getD 0).toNat_lt
  have limit := p.threshold.toNat_lt
  rw [Overflows, UInt32.le_iff_toNat_le]
  omega

theorem Overflows.count?_eq {i : String} (h : p.Overflows i) :
    p.count? i = some 4294967295 := by
  have full := (overflows_iff.1 h).2
  cases held : p.count? i with
  | none =>
    rw [held] at full
    cases full
  | some n =>
    rw [held] at full
    exact congrArg some (UInt32.toNat_inj.1 full)

theorem Overflows.count?_nextDelay {i : String} (h : p.Overflows i) :
    (p.nextDelay i).2.count? i = some 0 := by
  rw [nextDelay_of_le h.1, h.count?_eq]
  exact Std.ExtTreeMap.getElem?_insert_self

theorem asked_replicate (i : String) (n : Nat) :
    asked i (List.replicate n (.nextDelay i)) = n := by
  induction n with
  | zero => rfl
  | succ n ih => rw [List.replicate_succ', asked_nextDelay, ih]

/-! ### The highest threshold -/

structure Rolls (rs : List Request) (p : Pacer) : Prop where
  threshold : p.threshold.toNat = 2 ^ 32 - 1
  count : ∀ i, ((p.count? i).getD 0).toNat = asked i rs % 2 ^ 32

theorem rolls_new (top : threshold.toNat = 2 ^ 32 - 1) (short steady : Span) :
    Rolls [] (.new threshold short steady) := by
  refine ⟨top, fun i => ?_⟩
  have none_yet : (new threshold short steady).count? i = none := Std.ExtTreeMap.getElem?_empty
  rw [none_yet]
  rfl

namespace Rolls

variable (h : Rolls rs p)
include h

theorem le_threshold (i : String) : (p.count? i).getD 0 ≤ p.threshold := by
  have counted := ((p.count? i).getD 0).toNat_lt
  rw [UInt32.le_iff_toNat_le, h.threshold]
  omega

theorem serve (r : Request) : Rolls (rs ++ [r]) (p.serve r).2 := by
  refine ⟨?_, fun j => ?_⟩
  · cases r with
    | nextDelay i => exact (congrArg UInt32.toNat (p.threshold_nextDelay i)).trans h.threshold
    | forget | count => exact h.threshold
  by_cases hj : r.identity = j
  · subst hj
    cases r with
    | nextDelay i =>
      have counted := h.count i
      have raised : (p.nextDelay i).2.count? i = some ((p.count? i).getD 0 + 1) := by
        rw [nextDelay_of_le (h.le_threshold i)]
        exact Std.ExtTreeMap.getElem?_insert_self
      -- both sides go up by one, each modulo 2 ^ 32
      have one : (1 : UInt32).toNat = 1 := rfl
      simp only [Pacer.serve, Request.identity]
      rw [raised, Option.getD_some, UInt32.toNat_add, asked_nextDelay]
      omega
    | forget i =>
      simp only [Pacer.serve, Request.identity]
      rw [count?_forget_self, asked_forget]
      rfl
    | count i =>
      rw [asked_concat (by simp) (by simp)]
      exact h.count i
  · rw [count?_serve_of_ne hj, asked_of_identity_ne hj]
    exact h.count j

theorem overflows_iff (i : String) : p.Overflows i ↔ 2 ^ 32 ∣ asked i rs + 1 := by
  have counted := h.count i
  rw [Pacer.overflows_iff, and_iff_right h.threshold]
  omega

end Rolls
end Pacer

namespace PacerLine

open Pacer (Request Rolls asked)

variable {threshold : UInt32} (short steady : Span)

theorem rolls_after (top : threshold.toNat = 2 ^ 32 - 1) (rs : List Request) :
    ∃ p, after threshold short steady rs = ⟨some p, steady⟩ ∧ Rolls rs p :=
  holds_after short steady (Pacer.rolls_new top short steady) (fun _ _ r rolls => rolls.serve r) rs

/-- A counter is at most one above the threshold. It overflows only if there is no number above,
and then with every request that completes another 2 ^ 32 since the identity was forgotten; in
between it counts them. -/
theorem overflows_at_top (threshold : UInt32) (rs : List Request) :
    ∃ p, after threshold short steady rs = ⟨some p, steady⟩ ∧ ∀ i,
      ((p.count? i).getD 0).toNat ≤ threshold.toNat + 1 ∧
      (p.Overflows i ↔ threshold.toNat = 2 ^ 32 - 1 ∧ 2 ^ 32 ∣ asked i rs + 1) ∧
      (threshold.toNat = 2 ^ 32 - 1 → ((p.count? i).getD 0).toNat = asked i rs % 2 ^ 32) := by
  by_cases top : threshold.toNat = 2 ^ 32 - 1
  · obtain ⟨p, hp, rolls⟩ := rolls_after short steady top rs
    refine ⟨p, hp, fun i => ⟨?_, ?_, fun _ => rolls.count i⟩⟩
    · have counted := ((p.count? i).getD 0).toNat_lt
      omega
    · rw [rolls.overflows_iff, and_iff_right top]
  · have room : threshold.toNat < 2 ^ 32 - 1 := by
      have limit := threshold.toNat_lt
      omega
    obtain ⟨p, hp, counts⟩ := counts_after short steady room rs
    refine ⟨p, hp, fun i => ⟨?_, ?_, fun h => absurd h top⟩⟩
    · rw [counts.toNat_count]
      exact Nat.min_le_right ..
    · rw [Pacer.overflows_iff, counts.threshold]
      exact iff_of_false (fun h => top h.1) (fun h => top h.1)

end PacerLine

namespace Settings

open Pacer (Request Rolls asked)

def highest : Lookup := fun name =>
  List.lookup name [("ORG_CONTROLLER_SPEEDY_THRESHOLD", "4294967295")]

/-- With the highest threshold that can be set, the counter of an identity that was asked for one
time less than 2 ^ 32 is at the end of its range, and the next request takes it back to nothing. -/
theorem threshold_overflows : ∃ s, ofLookup highest = .ok s ∧ s.threshold = 4294967295 ∧
    ∃ p, PacerLine.after s.threshold s.shortWait s.steadyWait
        (List.replicate (2 ^ 32 - 1) (.nextDelay "a")) = ⟨some p, s.steadyWait⟩ ∧
      p.count? "a" = some 4294967295 ∧ p.Overflows "a" ∧
      (p.nextDelay "a").2.count? "a" = some 0 := by
  refine ⟨{ default with threshold := 4294967295 }, by rfl, rfl, ?_⟩
  obtain ⟨p, hp, rolls⟩ := PacerLine.rolls_after default.shortWait default.steadyWait
    (show (4294967295 : UInt32).toNat = 2 ^ 32 - 1 from rfl)
    (List.replicate (2 ^ 32 - 1) (.nextDelay "a"))
  have overflows : p.Overflows "a" := by
    rw [rolls.overflows_iff, Pacer.asked_replicate]
    exact Nat.dvd_refl _
  exact ⟨p, hp, overflows.count?_eq, overflows, overflows.count?_nextDelay⟩

end Settings
end Tenancy
