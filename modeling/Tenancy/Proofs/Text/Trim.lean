import Mathlib.Data.List.Basic
import Mathlib.Data.List.TakeWhile
import Tenancy.Text.Blank

/-! Trimming. A text without the blanks at its ends is what is left between them. -/

namespace Tenancy.Text

variable {before cs ds : List Char}

theorem trimStart_append (blank : ∀ c ∈ before, isBlank c = true) :
    trimStart (before ++ cs) = trimStart cs :=
  List.dropWhile_append_of_pos blank

theorem trimStart_eq_self (starts : ∀ c ∈ cs.head?, isBlank c = false) : trimStart cs = cs := by
  cases cs with
  | nil => rfl
  | cons c cs => exact List.dropWhile_cons_of_neg (Bool.eq_false_iff.1 (starts c rfl))

theorem head_trimStart (cs : List Char) : ∀ c ∈ (trimStart cs).head?, isBlank c = false := by
  intro c head
  have first := List.head?_dropWhile_not isBlank cs
  rw [show (cs.dropWhile isBlank).head? = some c from head] at first
  exact first

theorem exists_append_trimStart (cs : List Char) :
    ∃ before, cs = before ++ trimStart cs ∧ ∀ c ∈ before, isBlank c = true :=
  ⟨cs.takeWhile isBlank, List.takeWhile_append_dropWhile.symm, fun _ => List.mem_takeWhile_imp⟩

/-- There are only blanks around the text `ds`, and none at its ends. -/
structure Trimmed (cs ds : List Char) : Prop where
  around : ∃ before after, cs = before ++ ds ++ after ∧
    (∀ c ∈ before, isBlank c = true) ∧ ∀ c ∈ after, isBlank c = true
  starts : ∀ c ∈ ds.head?, isBlank c = false
  ends : ∀ c ∈ ds.getLast?, isBlank c = false

theorem trimmed_trim (cs : List Char) : Trimmed cs (trim cs) := by
  obtain ⟨before, start, blank⟩ := exists_append_trimStart cs
  obtain ⟨after, end_, blank'⟩ := exists_append_trimStart (trimStart cs).reverse
  have rest : trimStart cs = trim cs ++ after.reverse := by
    rw [trim, ← List.reverse_append, ← end_, List.reverse_reverse]
  refine ⟨⟨before, after.reverse, ?_, blank, fun c hc => blank' c (List.mem_reverse.1 hc)⟩,
    fun c head => ?_, fun c last => ?_⟩
  · rw [List.append_assoc, ← rest]
    exact start
  · -- what is left begins where the text without its first blanks does
    apply head_trimStart cs
    rw [rest]
    exact List.mem_head?_append_of_mem_head? head
  · apply head_trimStart (trimStart cs).reverse
    rwa [trim, List.getLast?_reverse] at last

theorem Trimmed.trim_eq (h : Trimmed cs ds) : trim cs = ds := by
  obtain ⟨⟨before, after, rfl, blank, blank'⟩, starts, ends⟩ := h
  have reversed : ∀ c ∈ after.reverse, isBlank c = true := fun c hc =>
    blank' c (List.mem_reverse.1 hc)
  unfold trim
  rw [List.append_assoc, trimStart_append blank]
  cases ds with
  | nil =>
    have nothing : trimStart after = [] := List.dropWhile_eq_nil_iff.2 blank'
    rw [List.nil_append, nothing]
    rfl
  | cons d ds =>
    have stays : trimStart (d :: ds ++ after) = d :: ds ++ after := trimStart_eq_self starts
    rw [stays, List.reverse_append, trimStart_append reversed, trimStart_eq_self,
      List.reverse_reverse]
    rwa [List.head?_reverse]

end Tenancy.Text
