import Mathlib.Logic.Basic
import Tenancy.Json.Canonical

/-! The shape of JSON values: how deep they nest and what their leaves are. The canonical form of a
value nests no deeper and has no other leaves. -/

namespace Tenancy.Json

/-- What passes from the items and members of a value to the value holds of every value. -/
@[elab_as_elim]
theorem parts_induction {P : Json → Prop} (null : P null) (bool : ∀ b, P (bool b))
    (int : ∀ n, P (int n)) (double : ∀ x, P (double x)) (str : ∀ s, P (str s)) (unfit : P unfit)
    (arr : ∀ xs, (∀ x ∈ xs, P x) → P (arr xs)) (obj : ∀ ms, (∀ m ∈ ms, P m.2) → P (obj ms))
    (j : Json) : P j := by
  cases j with
  | null => exact null
  | bool b => exact bool b
  | int n => exact int n
  | double x => exact double x
  | str s => exact str s
  | unfit => exact unfit
  | arr xs => exact arr xs fun x _ => parts_induction null bool int double str unfit arr obj x
  | obj ms => exact obj ms fun m _ => parts_induction null bool int double str unfit arr obj m.2
termination_by j
decreasing_by
  · have less := List.sizeOf_lt_of_mem ‹x ∈ xs›
    simp only [Json.arr.sizeOf_spec]
    omega
  · have less := List.sizeOf_lt_of_mem ‹m ∈ ms›
    have parts : sizeOf m = 1 + sizeOf m.1 + sizeOf m.2 := rfl
    simp only [Json.obj.sizeOf_spec]
    omega

/-! ### Depth -/

mutual

def depth : Json → Nat
  | arr xs => depthItems xs + 1
  | obj ms => depthMembers ms + 1
  | _ => 0

def depthItems : List Json → Nat
  | [] => 0
  | x :: xs => max (depth x) (depthItems xs)

def depthMembers : List (String × Json) → Nat
  | [] => 0
  | (_, x) :: ms => max (depth x) (depthMembers ms)

end

variable {n : Nat} {xs : List Json} {ms done : List (String × Json)} {k : String} {v : Json}

theorem depth_arr_le : depth (arr xs) ≤ n + 1 ↔ ∀ x ∈ xs, depth x ≤ n := by
  rw [depth, Nat.add_le_add_iff_right]
  induction xs with
  | nil => simp [depthItems]
  | cons x xs ih => rw [depthItems, Nat.max_le, ih, List.forall_mem_cons]

theorem depth_obj_le : depth (obj ms) ≤ n + 1 ↔ ∀ m ∈ ms, depth m.2 ≤ n := by
  rw [depth, Nat.add_le_add_iff_right]
  induction ms with
  | nil => simp [depthMembers]
  | cons m ms ih => rw [depthMembers, Nat.max_le, ih, List.forall_mem_cons]

theorem depth_arr_pos (xs : List Json) : 0 < depth (arr xs) := Nat.succ_pos _

theorem depth_obj_pos (ms : List (String × Json)) : 0 < depth (obj ms) := Nat.succ_pos _

/-! ### Leaves -/

mutual

def All (p : Json → Prop) : Json → Prop
  | arr xs => AllItems p xs
  | obj ms => AllMembers p ms
  | j => p j

def AllItems (p : Json → Prop) : List Json → Prop
  | [] => True
  | x :: xs => All p x ∧ AllItems p xs

def AllMembers (p : Json → Prop) : List (String × Json) → Prop
  | [] => True
  | (_, x) :: ms => All p x ∧ AllMembers p ms

end

variable {p q : Json → Prop}

theorem all_arr : All p (arr xs) ↔ ∀ x ∈ xs, All p x := by
  rw [All]
  induction xs with
  | nil => simp [AllItems]
  | cons x xs ih => rw [AllItems, ih, List.forall_mem_cons]

theorem all_obj : All p (obj ms) ↔ ∀ m ∈ ms, All p m.2 := by
  rw [All]
  induction ms with
  | nil => simp [AllMembers]
  | cons m ms ih => rw [AllMembers, ih, List.forall_mem_cons]

theorem All.imp (h : ∀ j, p j → q j) {j : Json} (all : All p j) : All q j := by
  induction j using parts_induction with
  | null | bool | int | double | str | unfit => exact h _ all
  | arr xs ih => exact all_arr.2 fun x hx => ih x hx (all_arr.1 all x hx)
  | obj ms ih => exact all_obj.2 fun m hm => ih m hm (all_obj.1 all m hm)

theorem All.and {j : Json} (hp : All p j) (hq : All q j) : All (fun j => p j ∧ q j) j := by
  induction j using parts_induction with
  | null | bool | int | double | str | unfit => exact ⟨hp, hq⟩
  | arr xs ih => exact all_arr.2 fun x hx => ih x hx (all_arr.1 hp x hx) (all_arr.1 hq x hx)
  | obj ms ih => exact all_obj.2 fun m hm => ih m hm (all_obj.1 hp m hm) (all_obj.1 hq m hm)

theorem sound_iff {j : Json} : j.sound = true ↔ All (· ≠ unfit) j := by
  have items (xs : List Json) : soundItems xs = true ↔ ∀ x ∈ xs, x.sound = true := by
    induction xs with
    | nil => simp [soundItems]
    | cons x xs ih => rw [soundItems, Bool.and_eq_true, ih, List.forall_mem_cons]
  have members (ms : List (String × Json)) :
      soundMembers ms = true ↔ ∀ m ∈ ms, m.2.sound = true := by
    induction ms with
    | nil => simp [soundMembers]
    | cons m ms ih => rw [soundMembers, Bool.and_eq_true, ih, List.forall_mem_cons]
  induction j using parts_induction with
  | null | bool | int | double | str | unfit => simp [sound, All]
  | arr xs ih => rw [sound, items, all_arr]; exact forall₂_congr ih
  | obj ms ih => rw [sound, members, all_obj]; exact forall₂_congr ih

/-! ### Leaves and depth -/

/-- Every leaf is such, and at most `n` arrays and objects nest. -/
structure Within (p : Json → Prop) (n : Nat) (j : Json) : Prop where
  leaves : All p j
  depth : j.depth ≤ n

theorem within_arr : Within p (n + 1) (arr xs) ↔ ∀ x ∈ xs, Within p n x :=
  ⟨fun h x hx => ⟨all_arr.1 h.leaves x hx, depth_arr_le.1 h.depth x hx⟩,
    fun h => ⟨all_arr.2 fun x hx => (h x hx).leaves, depth_arr_le.2 fun x hx => (h x hx).depth⟩⟩

theorem within_obj : Within p (n + 1) (obj ms) ↔ ∀ m ∈ ms, Within p n m.2 :=
  ⟨fun h m hm => ⟨all_obj.1 h.leaves m hm, depth_obj_le.1 h.depth m hm⟩,
    fun h => ⟨all_obj.2 fun m hm => (h m hm).leaves, depth_obj_le.2 fun m hm => (h m hm).depth⟩⟩

theorem Within.mono {j : Json} {m : Nat} (h : Within p n j) (le : n ≤ m) : Within p m j :=
  ⟨h.leaves, Nat.le_trans h.depth le⟩

/-! ### Canonical forms -/

theorem forall_mem_canonicalMembers {r : Json → Prop} (h : ∀ m ∈ done, r m.2)
    (h' : ∀ m ∈ ms, r (canonical m.2)) : ∀ m ∈ canonicalMembers done ms, r m.2 := by
  induction ms generalizing done with
  | nil => exact h
  | cons m ms ih =>
    rw [canonicalMembers]
    refine ih (fun n hn => ?_) fun n hn => h' n (List.mem_cons_of_mem _ hn)
    rcases mem_insertMember hn with rfl | hn
    · exact h' m (List.mem_cons_self ..)
    · exact h n hn

theorem forall_mem_canonicalItems {r : Json → Prop} (h : ∀ x ∈ xs, r (canonical x)) :
    ∀ x ∈ canonicalItems xs, r x := by
  induction xs with
  | nil => exact List.forall_mem_nil _
  | cons x xs ih =>
    rw [canonicalItems]
    exact List.forall_mem_cons.2 ⟨h x (List.mem_cons_self ..),
      ih fun y hy => h y (List.mem_cons_of_mem _ hy)⟩

theorem depth_canonical_le (j : Json) : j.canonical.depth ≤ j.depth := by
  induction j using parts_induction with
  | null | bool | int | double | str | unfit => exact Nat.le_refl _
  | arr xs ih =>
    have items := depth_arr_le.1 (Nat.le_refl (depth (arr xs)))
    rw [canonical]
    refine depth_arr_le.2 ?_
    exact forall_mem_canonicalItems fun x hx => Nat.le_trans (ih x hx) (items x hx)
  | obj ms ih =>
    have members := depth_obj_le.1 (Nat.le_refl (depth (obj ms)))
    rw [canonical]
    refine depth_obj_le.2 ?_
    exact forall_mem_canonicalMembers (r := (depth · ≤ depthMembers ms)) (List.forall_mem_nil _)
      fun m hm => Nat.le_trans (ih m hm) (members m hm)

theorem All.canonical {j : Json} (h : All p j) : All p j.canonical := by
  induction j using parts_induction with
  | null | bool | int | double | str | unfit => exact h
  | arr xs ih =>
    rw [Json.canonical, all_arr]
    exact forall_mem_canonicalItems fun x hx => ih x hx (all_arr.1 h x hx)
  | obj ms ih =>
    rw [Json.canonical, all_obj]
    exact forall_mem_canonicalMembers (List.forall_mem_nil _) fun m hm =>
      ih m hm (all_obj.1 h m hm)

theorem canonical_eq_null {j : Json} : j.canonical = null ↔ j = null := by
  cases j <;> simp [Json.canonical]

end Tenancy.Json
