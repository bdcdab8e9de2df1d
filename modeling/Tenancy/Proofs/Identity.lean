import Mathlib.Data.String.Basic
import Tenancy.Metadata

/-! Identities of keys. Two keys have the same identity exactly if they are the same but for the dot
that parts the namespace from the name, so it tells keys apart in namespaces without dots. -/

namespace Tenancy.Key

variable {k l : Key}

/-- What follows a dot in the namespace of the second key begins the name of the first. -/
def Shifts (k l : Key) : Prop := ∃ x, l.ns = k.ns ++ "." ++ x ∧ k.name = x ++ "." ++ l.name

theorem Shifts.identity_eq (h : k.Shifts l) : k.identity = l.identity := by
  obtain ⟨x, ns, name⟩ := h
  have left : k.identity = k.ns ++ "." ++ (x ++ "." ++ l.name) := name ▸ rfl
  have right : l.identity = k.ns ++ "." ++ x ++ "." ++ l.name := ns ▸ rfl
  simp only [left, right, String.append_assoc]

theorem Shifts.dotted (h : k.Shifts l) : '.' ∈ l.ns.toList := by
  obtain ⟨x, ns, -⟩ := h
  simp [ns]

theorem toList_identity (k : Key) : k.identity.toList = k.ns.toList ++ '.' :: k.name.toList := by
  have joined : k.identity = k.ns ++ "." ++ k.name := rfl
  simp [joined]

theorem shifts_of_append {as : List Char} (ns : l.ns.toList = k.ns.toList ++ as)
    (name : '.' :: k.name.toList = as ++ '.' :: l.name.toList) : k = l ∨ k.Shifts l := by
  cases as with
  | nil =>
    have ns : k.ns = l.ns := String.toList_inj.1 (by simpa using ns.symm)
    have name : k.name = l.name := String.toList_inj.1 (by simpa using name)
    cases k
    cases l
    exact .inl (by simp_all)
  | cons c cs =>
    obtain ⟨rfl, -⟩ := List.cons.inj name
    refine .inr ⟨.ofList cs, String.toList_inj.1 ?_, String.toList_inj.1 ?_⟩
    · simp [ns]
    · simpa using name

theorem identity_eq_iff : k.identity = l.identity ↔ k = l ∨ k.Shifts l ∨ l.Shifts k := by
  constructor
  · intro same
    have texts := congrArg String.toList same
    rw [toList_identity, toList_identity] at texts
    rcases List.append_eq_append_iff.1 texts with ⟨as, ns, name⟩ | ⟨as, ns, name⟩
    · exact (shifts_of_append ns name).imp_right Or.inl
    · exact (shifts_of_append ns name).imp Eq.symm Or.inr
  · rintro (rfl | shifts | shifts)
    · rfl
    · exact shifts.identity_eq
    · exact shifts.identity_eq.symm

theorem identity_injective (hk : '.' ∉ k.ns.toList) (hl : '.' ∉ l.ns.toList)
    (same : k.identity = l.identity) : k = l := by
  rcases identity_eq_iff.1 same with rfl | shifts | shifts
  · rfl
  · exact absurd shifts.dotted hl
  · exact absurd shifts.dotted hk

end Tenancy.Key
