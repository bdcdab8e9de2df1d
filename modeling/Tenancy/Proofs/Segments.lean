import Mathlib.Data.String.Basic
import Tenancy.Proofs.Text.Parts
import Tenancy.Registry

/-! Segments of names. A name has one more segment than it has dots, and two names without dots that
are joined by one are found again. A name is split into an organization and a deployment exactly if
a lookup under it goes to a deployment. -/

namespace Tenancy

theorem length_splitDots (cs : List Char) : (splitDots cs).length = cs.count '.' + 1 := by
  induction cs with
  | nil => rfl
  | cons c cs ih =>
    by_cases dot : c = '.'
    · simp [splitDots, dot, ih]
    · -- what follows has a segment, to which the character is added
      cases rest : splitDots cs with
      | nil => simp [rest] at ih
      | cons s ss => simpa [splitDots, dot, rest] using ih

theorem splitDots_append {as bs : List Char} (plain : '.' ∉ as) :
    splitDots (as ++ '.' :: bs) = as :: splitDots bs := by
  induction as with
  | nil => rfl
  | cons a as ih =>
    have letter : a ≠ '.' := (List.ne_of_not_mem_cons plain).symm
    simp [splitDots, letter, ih (List.not_mem_of_not_mem_cons plain)]

theorem splitDots_eq_singleton {as : List Char} (plain : '.' ∉ as) : splitDots as = [as] := by
  induction as with
  | nil => rfl
  | cons a as ih =>
    have letter : a ≠ '.' := (List.ne_of_not_mem_cons plain).symm
    simp [splitDots, letter, ih (List.not_mem_of_not_mem_cons plain)]

section

variable {name organization deployment : String}

theorem length_segments (name : String) :
    (segments name).length = name.toList.count '.' + 1 := by
  rw [segments, List.length_map, length_splitDots]

theorem splitDeploymentName_dotted (dotted : name.toList.count '.' = 1) :
    ∃ o d, splitDeploymentName name = (o, d) ∧ name = o ++ "." ++ d ∧
      '.' ∉ o.toList ∧ '.' ∉ d.toList := by
  obtain ⟨joined, plain, -⟩ := parts_splitDots name.toList
  have length : (splitDots name.toList).length = 2 := by rw [length_splitDots, dotted]
  obtain ⟨os, ds, two⟩ := List.length_eq_two.1 length
  rw [two] at joined plain
  refine ⟨.ofList os, .ofList ds, ?_, ?_, ?_, ?_⟩
  · simp only [splitDeploymentName, segments, two, List.map_cons, List.map_nil]
  · apply String.toList_inj.1
    simpa using joined.symm
  · simpa using plain os (by simp)
  · simpa using plain ds (by simp)

theorem splitDeploymentName_malformed (malformed : name.toList.count '.' ≠ 1) :
    splitDeploymentName name = ("", "") := by
  have length := length_segments name
  unfold splitDeploymentName
  split
  · rename_i two
    rw [two] at length
    exact absurd (Nat.succ.inj length).symm malformed
  · rfl

example : splitDeploymentName "a.b.c" = ("", "") := by decide

namespace Registry

theorem registerName_of_ne (named : deployment ≠ "") :
    registerName organization deployment = organization ++ "." ++ deployment :=
  if_neg named

theorem segments_registerName (plain : '.' ∉ organization.toList) (plain' : '.' ∉ deployment.toList)
    (named : deployment ≠ "") :
    segments (registerName organization deployment) = [organization, deployment] := by
  have text : (registerName organization deployment).toList =
      organization.toList ++ '.' :: deployment.toList := by simp [registerName_of_ne named]
  rw [segments, text, splitDots_append plain, splitDots_eq_singleton plain']
  simp

theorem target_organization (ns : String) (dots : name.toList.count '.' = 0) :
    target ns name = .ok (.organization ⟨ns, name⟩) := by
  simp [target, length_segments, dots]

theorem target_deployment (ns : String) (dots : name.toList.count '.' = 1) :
    target ns name = .ok (.deployment ⟨ns, name⟩) := by
  simp [target, length_segments, dots]

theorem target_invalid (ns : String) (dots : 2 ≤ name.toList.count '.') :
    target ns name = .error (.invalidRegisterName name) := by
  unfold target
  rw [length_segments]
  split
  · omega
  · omega
  · rfl

theorem splitDeploymentName_registerName (plain : '.' ∉ organization.toList)
    (plain' : '.' ∉ deployment.toList) (named : deployment ≠ "") :
    splitDeploymentName (registerName organization deployment) = (organization, deployment) := by
  rw [splitDeploymentName, segments_registerName plain plain' named]

theorem count_registerName (plain : '.' ∉ organization.toList) (plain' : '.' ∉ deployment.toList)
    (named : deployment ≠ "") : (registerName organization deployment).toList.count '.' = 1 := by
  have length := length_segments (registerName organization deployment)
  rw [segments_registerName plain plain' named] at length
  exact (Nat.succ.inj length).symm

/-- What the dots of a name make of it: its two parts, if it is split, and the object that is looked
up under it. -/
structure Dispatched (name : String) : Prop where
  split : name.toList.count '.' = 1 → ∃ o d, splitDeploymentName name = (o, d) ∧
    name = o ++ "." ++ d ∧ '.' ∉ o.toList ∧ '.' ∉ d.toList
  whole : name.toList.count '.' ≠ 1 → splitDeploymentName name = ("", "")
  deployment (ns : String) :
    target ns name = .ok (.deployment ⟨ns, name⟩) ↔ name.toList.count '.' = 1
  organization (ns : String) :
    target ns name = .ok (.organization ⟨ns, name⟩) ↔ name.toList.count '.' = 0
  invalid (ns : String) :
    target ns name = .error (.invalidRegisterName name) ↔ 2 ≤ name.toList.count '.'

theorem dispatched (name : String) : Dispatched name := by
  -- there are no dots, one, or more, and each case has its own answer
  have cases_ : name.toList.count '.' = 0 ∨ name.toList.count '.' = 1 ∨
      2 ≤ name.toList.count '.' := by omega
  refine ⟨splitDeploymentName_dotted, splitDeploymentName_malformed, fun ns => ?_, fun ns => ?_,
    fun ns => ?_⟩
  all_goals
    rcases cases_ with dots | dots | dots
    · rw [target_organization ns dots]
      simp [dots]
    · rw [target_deployment ns dots]
      simp [dots]
    · have dotted : name.toList.count '.' ≠ 0 := by omega
      have more : name.toList.count '.' ≠ 1 := by omega
      rw [target_invalid ns dots]
      simp [dots, dotted, more]

/-- Names are split and looked up by their dots alone. So a deployment without dots is found again
under the name that is built from it and its organization, which is split where it was joined; and
without a deployment that name finds the organization. -/
theorem names_dispatched : (∀ name, Dispatched name) ∧
    ∀ ns o d : String, '.' ∉ o.toList → '.' ∉ d.toList →
      (d ≠ "" → splitDeploymentName (registerName o d) = (o, d) ∧
        target ns (registerName o d) = .ok (.deployment ⟨ns, registerName o d⟩)) ∧
      target ns (registerName o "") = .ok (.organization ⟨ns, o⟩) := by
  refine ⟨dispatched, fun ns o d plain plain' => ⟨fun named => ⟨?_, ?_⟩, ?_⟩⟩
  · exact splitDeploymentName_registerName plain plain' named
  · exact target_deployment ns (count_registerName plain plain' named)
  · have whole : registerName o "" = o := if_pos rfl
    rw [whole]
    exact target_organization ns (List.count_eq_zero.2 plain)

theorem names_dispatched_joined : splitDeploymentName (registerName "a" "b") = ("a", "b") ∧
    target "x" (registerName "a" "b") = .ok (.deployment ⟨"x", "a.b"⟩) ∧
    target "x" (registerName "a" "") = .ok (.organization ⟨"x", "a"⟩) := by
  obtain ⟨joined, alone⟩ := names_dispatched.2 "x" "a" "b" (by decide) (by decide)
  obtain ⟨split, found⟩ := joined (by decide)
  exact ⟨split, found, alone⟩

end Registry
end
end Tenancy
