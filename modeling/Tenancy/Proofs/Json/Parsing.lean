import Tenancy.Proofs.Json.Lexing

/-! Values are read from their texts, unless they nest too deep. -/

namespace Tenancy.Json

open Token

namespace Token

def Parses (room : Nat) (j : Json) : Prop :=
  ∀ fuel ts, 2 * (printed j).length ≤ fuel → value fuel room (printed j ++ ts) = some (j, ts)

variable {room fuel : Nat} {ts : List Token}

theorem printed_eq_cons (j : Json) : ∃ t ts, printed j = t :: ts ∧
    t ≠ .closeArray ∧ t ≠ .closeObject := by
  cases j <;> refine ⟨_, _, rfl, ?_, ?_⟩ <;> intro h <;> cases h

theorem value_array (h : ∀ rest, ts ≠ .closeArray :: rest) :
    value (fuel + 1) room (.openArray :: ts) =
      (items fuel (room - 1) ts).map fun (js, ts) => (value.fitting room (.arr js), ts) := by
  rw [value]
  exact h

theorem value_object (h : ∀ rest, ts ≠ .closeObject :: rest) :
    value (fuel + 1) room (.openObject :: ts) =
      (members fuel (room - 1) ts).map fun (ms, ts) =>
        (value.fitting room (ms.elim .unfit .obj), ts) := by
  rw [value]
  exact h

theorem fitting_of_pos (j : Json) (h : 0 < room) : value.fitting room j = j :=
  if_neg (Nat.pos_iff_ne_zero.1 h)

theorem parses_items {xs : List Json} (h : ∀ x ∈ xs, Parses room x) (ne : xs ≠ [])
    (enough : 2 * (printedItems xs).length + 1 ≤ fuel) :
    items fuel room (printedItems xs ++ .closeArray :: ts) = some (xs, ts) := by
  induction xs generalizing fuel with
  | nil => exact (ne rfl).elim
  | cons x xs ih =>
    obtain ⟨hx, hxs⟩ := List.forall_mem_cons.1 h
    obtain ⟨fuel, rfl⟩ := Nat.exists_eq_add_of_lt (Nat.lt_of_lt_of_le (Nat.succ_pos _) enough)
    rw [Nat.zero_add] at enough ⊢
    cases xs with
    | nil =>
      have first := hx fuel (.closeArray :: ts) (by simp only [printedItems] at enough; omega)
      rw [printedItems, items, first]
    | cons y xs =>
      simp only [printedItems, List.length_append, List.length_cons] at enough
      have first := hx fuel (.comma :: (printedItems (y :: xs) ++ .closeArray :: ts)) (by omega)
      have more : items fuel room (printedItems (y :: xs) ++ .closeArray :: ts) =
          some (y :: xs, ts) := ih hxs (List.cons_ne_nil y xs) (by omega)
      rw [printedItems, List.append_assoc, List.cons_append, items, first]
      dsimp only
      rw [more, Option.map_some]

theorem parses_members {ms : List (String × Json)} (h : ∀ m ∈ ms, Parses room m.2) (ne : ms ≠ [])
    (enough : 2 * (printedMembers ms).length + 1 ≤ fuel) :
    members fuel room (printedMembers ms ++ .closeObject :: ts) = some (some ms, ts) := by
  induction ms generalizing fuel with
  | nil => exact (ne rfl).elim
  | cons m ms ih =>
    obtain ⟨k, x⟩ := m
    obtain ⟨hx, hms⟩ := List.forall_mem_cons.1 h
    replace hx : Parses room x := hx
    obtain ⟨fuel, rfl⟩ := Nat.exists_eq_add_of_lt (Nat.lt_of_lt_of_le (Nat.succ_pos _) enough)
    rw [Nat.zero_add] at enough ⊢
    cases ms with
    | nil =>
      simp only [printedMembers, List.length_cons] at enough
      have first := hx fuel (.closeObject :: ts) (by omega)
      rw [printedMembers, List.cons_append, List.cons_append, members, first]
      rfl
    | cons m ms =>
      simp only [printedMembers, List.length_append, List.length_cons] at enough
      have first := hx fuel (.comma :: (printedMembers (m :: ms) ++ .closeObject :: ts)) (by omega)
      have more : members fuel room (printedMembers (m :: ms) ++ .closeObject :: ts) =
          some (some (m :: ms), ts) := ih hms (List.cons_ne_nil m ms) (by omega)
      rw [printedMembers, List.cons_append, List.cons_append, List.append_assoc, List.cons_append,
        members, first]
      dsimp only
      rw [more, Option.map_some]
      rfl

theorem parses_arr {xs : List Json} (h : ∀ x ∈ xs, Parses room x) :
    Parses (room + 1) (.arr xs) := by
  intro fuel ts enough
  obtain ⟨fuel, rfl⟩ := Nat.exists_eq_add_of_lt (Nat.lt_of_lt_of_le (Nat.succ_pos _) enough)
  simp only [printed, List.length_cons, List.length_append, List.length_nil] at enough
  have fits := fitting_of_pos (.arr xs) (Nat.succ_pos room)
  cases xs with
  | nil => exact congrArg (fun j => some (j, ts)) fits
  | cons x xs =>
    have read : items (0 + fuel) room (printedItems (x :: xs) ++ .closeArray :: ts) =
        some (x :: xs, ts) := parses_items h (List.cons_ne_nil x xs) (by omega)
    have starts : ∀ rest, printedItems (x :: xs) ++ .closeArray :: ts ≠ .closeArray :: rest := by
      intro rest heq
      obtain ⟨t, more, first, ne, -⟩ := printed_eq_cons x
      cases xs <;> simp only [printedItems, first, List.cons_append] at heq <;>
        exact ne (List.cons.inj heq).1
    rw [printed, List.cons_append, List.append_assoc]
    refine (value_array starts).trans ?_
    rw [Nat.add_sub_cancel, read, Option.map_some]
    exact congrArg (fun j => some (j, ts)) fits

theorem parses_obj {ms : List (String × Json)} (h : ∀ m ∈ ms, Parses room m.2) :
    Parses (room + 1) (.obj ms) := by
  intro fuel ts enough
  obtain ⟨fuel, rfl⟩ := Nat.exists_eq_add_of_lt (Nat.lt_of_lt_of_le (Nat.succ_pos _) enough)
  simp only [printed, List.length_cons, List.length_append, List.length_nil] at enough
  have fits := fitting_of_pos (.obj ms) (Nat.succ_pos room)
  cases ms with
  | nil => exact congrArg (fun j => some (j, ts)) fits
  | cons m ms =>
    have read : members (0 + fuel) room (printedMembers (m :: ms) ++ .closeObject :: ts) =
        some (some (m :: ms), ts) := parses_members h (List.cons_ne_nil m ms) (by omega)
    have starts : ∀ rest,
        printedMembers (m :: ms) ++ .closeObject :: ts ≠ .closeObject :: rest := by
      intro rest heq
      cases ms <;> cases heq
    rw [printed, List.cons_append, List.append_assoc]
    refine (value_object starts).trans ?_
    rw [Nat.add_sub_cancel, read, Option.map_some]
    exact congrArg (fun j => some (j, ts)) fits

theorem parses_of_exact {j : Json} (h : All Exact j) (deep : j.depth ≤ room) : Parses room j := by
  induction j using parts_induction generalizing room with
  | null | bool | int | str =>
    intro fuel ts enough
    obtain ⟨fuel, rfl⟩ := Nat.exists_eq_add_of_lt (Nat.lt_of_lt_of_le (Nat.succ_pos _) enough)
    rfl
  | double | unfit => cases h
  | arr xs ih =>
    obtain ⟨room, rfl⟩ := Nat.exists_eq_add_of_le' (Nat.lt_of_lt_of_le (depth_arr_pos xs) deep)
    exact parses_arr fun x hx => ih x hx (all_arr.1 h x hx) (depth_arr_le.1 deep x hx)
  | obj ms ih =>
    obtain ⟨room, rfl⟩ := Nat.exists_eq_add_of_le' (Nat.lt_of_lt_of_le (depth_obj_pos ms) deep)
    exact parses_obj fun m hm => ih m hm (all_obj.1 h m hm) (depth_obj_le.1 deep m hm)

end Token

/-- What is written is read again, if its leaves are exact and it does not nest too deep. -/
theorem readGlyphs_chars {j : Json} (h : All Exact j) (deep : j.depth ≤ nestingLimit) :
    readGlyphs (glyphs (chars j)) = some j := by
  have lexed := prints_of_exact h [] [] (fun _ hc => by cases hc) .nil _ (Nat.le_refl _)
  have parsed := parses_of_exact h deep (2 * (printed j).length + 1) [] (Nat.le_succ _)
  rw [List.append_nil] at lexed parsed
  rw [List.append_nil] at lexed
  rw [readGlyphs, lex, lexed]
  simp only [Option.bind_eq_bind, Option.bind_some, parsed]

end Tenancy.Json
