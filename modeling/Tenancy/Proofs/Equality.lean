import Mathlib.Logic.Basic
import Tenancy.Deployment.Logic

/-! Values are equal if they are the same without the signs of their zeros. So equality is an
equivalence, and what a deployment comes to respects it. -/

namespace Tenancy

namespace Double

def unsigned (x : Double) : Double := if x.isZero then zero false else x

theorem beq_iff {x y : Double} : (x == y) = true ↔ x.unsigned = y.unsigned := by
  show ((x.isZero && y.isZero) || decide (x = y)) = true ↔ _
  have zero_of {z : Double} (h : zero false = z) : z.isZero = true := by
    rw [← h]
    rfl
  unfold unsigned
  by_cases hx : x.isZero = true <;> by_cases hy : y.isZero = true
  · simp [hx, hy]
  · have ne : x ≠ y := fun he => hy (he ▸ hx)
    simpa [hx, hy, ne] using fun h => hy (zero_of h)
  · have ne : x ≠ y := fun he => hx (he ▸ hy)
    simpa [hx, hy, ne] using fun h => hx (zero_of h.symm)
  · simp [hx, hy]

end Double

namespace Json

mutual

def unsigned : Json → Json
  | double x => double x.unsigned
  | arr xs => arr (unsignedItems xs)
  | obj ms => obj (unsignedMembers ms)
  | j => j

def unsignedItems : List Json → List Json
  | [] => []
  | x :: xs => unsigned x :: unsignedItems xs

def unsignedMembers : List (String × Json) → List (String × Json)
  | [] => []
  | (k, x) :: ms => (k, unsigned x) :: unsignedMembers ms

end

mutual

theorem beq_iff : (a b : Json) → (beq a b = true ↔ a.unsigned = b.unsigned)
  | double x, double y => by simp [beq, unsigned, Double.beq_iff]
  | arr xs, arr ys => by simp [beq, unsigned, beqItems_iff xs ys]
  | obj xs, obj ys => by simp [beq, unsigned, beqMembers_iff xs ys]
  | null, b => by cases b <;> simp [beq, unsigned]
  | bool _, b => by cases b <;> simp [beq, unsigned]
  | int _, b => by cases b <;> simp [beq, unsigned]
  | str _, b => by cases b <;> simp [beq, unsigned]
  | unfit, b => by cases b <;> simp [beq, unsigned]
  | a, null => by cases a <;> simp [beq, unsigned]
  | a, bool _ => by cases a <;> simp [beq, unsigned]
  | a, int _ => by cases a <;> simp [beq, unsigned]
  | a, str _ => by cases a <;> simp [beq, unsigned]
  | a, unfit => by cases a <;> simp [beq, unsigned]
  | double _, arr _ | double _, obj _ | arr _, double _ | arr _, obj _ | obj _, double _
  | obj _, arr _ => by simp [beq, unsigned]

theorem beqItems_iff : (xs ys : List Json) →
    (beqItems xs ys = true ↔ unsignedItems xs = unsignedItems ys)
  | [], [] => by simp [beqItems]
  | [], _ :: _ | _ :: _, [] => by simp [beqItems, unsignedItems]
  | x :: xs, y :: ys => by simp [beqItems, unsignedItems, beq_iff x y, beqItems_iff xs ys]

theorem beqMembers_iff : (xs ys : List (String × Json)) →
    (beqMembers xs ys = true ↔ unsignedMembers xs = unsignedMembers ys)
  | [], [] => by simp [beqMembers]
  | [], _ :: _ | _ :: _, [] => by simp [beqMembers, unsignedMembers]
  | (k, x) :: xs, (l, y) :: ys => by
    simp [beqMembers, unsignedMembers, beq_iff x y, beqMembers_iff xs ys, and_assoc]

end

end Json

/-! ### Strategies -/

namespace Strategy

theorem beq_iff {s t : Strategy} : (s == t) = true ↔ s.value.unsigned = t.value.unsigned :=
  Json.beq_iff _ _

instance : EquivBEq Strategy := equivBEq_of_iff_apply_eq (·.value.unsigned) fun _ _ => beq_iff

theorem isEmpty_eq (s : Strategy) :
    s.isEmpty = match s.value.unsigned with
      | .null => true
      | .arr xs => xs.isEmpty
      | .obj ms => ms.isEmpty
      | _ => false := by
  unfold isEmpty
  cases s.value with
  | arr xs => cases xs <;> rfl
  | obj ms => cases ms <;> rfl
  | null | bool | int | double | str | unfit => rfl

theorem option_beq_iff {s t : Option Strategy} :
    (s == t) = true ↔ s.map (·.value.unsigned) = t.map (·.value.unsigned) := by
  cases s with
  | none => cases t <;> simp
  | some s =>
    cases t with
    | none => simp
    | some t =>
      simp only [Option.map_some, Option.some.injEq]
      exact beq_iff

theorem inherit_congr {p q s t : Option Strategy} (parent : (p == q) = true)
    (own : (s == t) = true) : (inherit p s == inherit q t) = true := by
  cases s with
  | none =>
    cases t with
    | none => exact parent
    | some t => cases own
  | some s =>
    cases t with
    | none => cases own
    | some t =>
      have empty : s.isEmpty = t.isEmpty := by
        rw [isEmpty_eq, isEmpty_eq, beq_iff.1 own]
      unfold inherit
      simp only [empty]
      split
      · exact parent
      · exact own

end Strategy

/-! ### Records -/

theorem Observed.beq_iff {a b : Observed} : (a == b) = true ↔
    a.status = b.status ∧ a.reason = b.reason ∧ a.registers = b.registers ∧
      (a.strategy == b.strategy) = true := by
  have fields : (a == b) = (a.status == b.status && (a.reason == b.reason &&
      (a.registers == b.registers && a.strategy == b.strategy))) := by
    cases a
    cases b
    rfl
  simp only [fields, Bool.and_eq_true, beq_iff_eq]

theorem OrganizationSpec.beq_iff {a b : OrganizationSpec} : (a == b) = true ↔
    a.description = b.description ∧ a.registers = b.registers ∧
      (a.strategy == b.strategy) = true := by
  have fields : (a == b) = (a.description == b.description && (a.registers == b.registers &&
      a.strategy == b.strategy)) := by
    cases a
    cases b
    rfl
  simp only [fields, Bool.and_eq_true, beq_iff_eq]

theorem DeploymentSpec.beq_iff {a b : DeploymentSpec} : (a == b) = true ↔
    a.adminState = b.adminState ∧ a.description = b.description ∧ a.region = b.region ∧
      a.kind = b.kind ∧ a.registers = b.registers ∧ (a.strategy == b.strategy) = true := by
  have fields : (a == b) = (a.adminState == b.adminState && (a.description == b.description &&
      (a.region == b.region && (a.kind == b.kind && (a.registers == b.registers &&
        a.strategy == b.strategy))))) := by
    cases a
    cases b
    rfl
  simp only [fields, Bool.and_eq_true, beq_iff_eq]

instance : EquivBEq Observed :=
  equivBEq_of_iff_apply_eq
    (fun o => (o.status, o.reason, o.registers, o.strategy.map (·.value.unsigned)))
    fun _ _ => by simp only [Observed.beq_iff, Strategy.option_beq_iff, Prod.mk.injEq]

instance : EquivBEq OrganizationSpec :=
  equivBEq_of_iff_apply_eq
    (fun s => (s.description, s.registers, s.strategy.map (·.value.unsigned)))
    fun _ _ => by simp only [OrganizationSpec.beq_iff, Strategy.option_beq_iff, Prod.mk.injEq]

instance : EquivBEq DeploymentSpec :=
  equivBEq_of_iff_apply_eq
    (fun s => (s.adminState, s.description, s.region, s.kind, s.registers,
      s.strategy.map (·.value.unsigned)))
    fun _ _ => by simp only [DeploymentSpec.beq_iff, Strategy.option_beq_iff, Prod.mk.injEq]

/-! ### Deployments -/

theorem Deployment.effective_congr {d e : Deployment} {p q : Organization}
    (own : (d.spec == e.spec) = true) (parent : (p.spec == q.spec) = true) :
    (d.effective p == e.effective q) = true := by
  obtain ⟨hs, -, -, -, hr, ht⟩ := DeploymentSpec.beq_iff.1 own
  obtain ⟨-, hp, hq⟩ := OrganizationSpec.beq_iff.1 parent
  have registers : p.registers.inherit d.registers = q.registers.inherit e.registers := by
    show (Registers.ofList p.spec.registers).inherit (Registers.ofList d.spec.registers) = _
    rw [hp, hr]
    rfl
  unfold effective
  rw [hs, registers]
  split
  · exact BEq.refl _
  · exact Observed.beq_iff.2 ⟨rfl, rfl, rfl, Strategy.inherit_congr hq ht⟩

end Tenancy
