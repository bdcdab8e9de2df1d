import Mathlib.Data.List.Basic
import Tenancy.Segments
import Tenancy.Settings

/-! Texts in parts. A separator parts a text in one way only: the parts do not hold it, and joined
by it they are the text. -/

namespace Tenancy

namespace Text

variable {sep : Char} {cs : List Char} {parts : List (List Char)}

structure Parts (sep : Char) (cs : List Char) (parts : List (List Char)) : Prop where
  joined : [sep].intercalate parts = cs
  plain : ∀ p ∈ parts, sep ∉ p
  some_ : parts ≠ []

theorem splitOn_cons (sep c : Char) (cs : List Char) : (c :: cs).splitOn sep =
    if c = sep then [] :: cs.splitOn sep else (cs.splitOn sep).modifyHead (c :: ·) := by
  unfold List.splitOn
  rw [List.splitOnP_cons_eq_if_modifyHead]
  simp only [beq_iff_eq]

theorem splitOn_ne_nil (sep : Char) (cs : List Char) : cs.splitOn sep ≠ [] :=
  List.splitOnP_ne_nil _ cs

theorem not_mem_of_mem_splitOn {p : List Char} (h : p ∈ cs.splitOn sep) : sep ∉ p := by
  induction cs generalizing p with
  | nil =>
    rw [List.splitOn_nil, List.mem_singleton] at h
    rw [h]
    exact List.not_mem_nil
  | cons c cs ih =>
    rw [splitOn_cons] at h
    split at h
    · rcases List.mem_cons.1 h with rfl | h
      · exact List.not_mem_nil
      · exact ih h
    · rename_i letter
      obtain ⟨q, qs, split⟩ := List.exists_cons_of_ne_nil (splitOn_ne_nil sep cs)
      rw [split, List.modifyHead_cons, List.mem_cons] at h
      rcases h with rfl | h
      · have rest : sep ∉ q := ih (split ▸ List.mem_cons_self)
        exact fun found => (List.mem_cons.1 found).elim (fun same => letter same.symm) rest
      · exact ih (split ▸ List.mem_cons_of_mem q h)

theorem parts_iff : Parts sep cs parts ↔ cs.splitOn sep = parts := by
  constructor
  · rintro ⟨rfl, plain, some_⟩
    exact List.splitOn_intercalate sep plain some_
  · rintro rfl
    exact ⟨List.intercalate_splitOn sep, fun _ => not_mem_of_mem_splitOn, splitOn_ne_nil sep cs⟩

end Text

theorem splitDots_eq_splitOn (cs : List Char) : splitDots cs = cs.splitOn '.' := by
  induction cs with
  | nil => rfl
  | cons c cs ih =>
    obtain ⟨p, ps, split⟩ := List.exists_cons_of_ne_nil (Text.splitOn_ne_nil '.' cs)
    rw [Text.splitOn_cons, splitDots, ih, split]
    rfl

theorem Settings.splitCommas_eq_splitOn (cs : List Char) : splitCommas cs = cs.splitOn ',' := by
  induction cs with
  | nil => rfl
  | cons c cs ih =>
    obtain ⟨p, ps, split⟩ := List.exists_cons_of_ne_nil (Text.splitOn_ne_nil ',' cs)
    rw [Text.splitOn_cons, splitCommas, ih, split]
    rfl

theorem parts_splitDots (cs : List Char) : Text.Parts '.' cs (splitDots cs) :=
  Text.parts_iff.2 (splitDots_eq_splitOn cs).symm

theorem Settings.parts_splitCommas (cs : List Char) : Text.Parts ',' cs (splitCommas cs) :=
  Text.parts_iff.2 (splitCommas_eq_splitOn cs).symm

end Tenancy
