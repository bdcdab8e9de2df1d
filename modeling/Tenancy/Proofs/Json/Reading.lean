import Tenancy.Proofs.Json.Parsing

/-! What comes of reading: whole numbers are 64-bit words, and nothing nests past the limit. -/

namespace Tenancy.Json

def Word : Json → Prop
  | int n => -(1 <<< 63) ≤ n ∧ n < 1 <<< 64
  | _ => True

def Tame (j : Json) : Prop := Word j ∧ ∀ x, j ≠ double x

theorem exact_iff {j : Json} : Exact j ↔ Tame j ∧ j ≠ unfit := by
  cases j <;> simp [Exact, Tame, Word]

theorem within_leaf {n : Nat} {j : Json} (word : All Word j) (leaf : j.depth = 0) :
    Within Word n j :=
  ⟨word, leaf ▸ Nat.zero_le n⟩

namespace Numeral

theorem absorb_lt {m : Nat} (ds : List Nat) (h : m < UInt64.size) :
    (absorb m ds).1 < UInt64.size := by
  induction ds generalizing m with
  | nil => exact h
  | cons d ds ih =>
    rw [absorb]
    split
    next fits => exact ih fits
    next => exact h

theorem within_value (n : Numeral) : Within Word 0 n.value := by
  have small : (absorb 0 n.whole).1 < 1 <<< 64 := absorb_lt n.whole (by decide)
  unfold value
  generalize absorb 0 n.whole = p at small ⊢
  obtain ⟨m, left⟩ := p
  dsimp only at small ⊢
  -- A number is whole, or else it is a double or beyond the doubles.
  split
  · split
    · split <;> exact within_leaf trivial rfl
    · split
      · exact within_leaf ⟨by omega, by omega⟩ rfl
      · split
        · exact within_leaf ⟨by omega, by omega⟩ rfl
        · split <;> exact within_leaf trivial rfl
  · split <;> exact within_leaf trivial rfl

end Numeral

namespace Token

def Sane : Token → Prop
  | scalar j => Within Word 0 j
  | _ => True

theorem sane_scan {c : Char} {g rest : List Glyph} {t : Token} (h : scan c g = some (t, rest)) :
    t.Sane := by
  unfold scan at h
  split at h
  · obtain ⟨_, -, is⟩ := Option.map_eq_some_iff.1 h
    cases is
    trivial
  · split at h
    next mark =>
      cases h
      unfold mark? at mark
      split at mark <;> cases mark <;> trivial
    next word =>
      obtain ⟨_, -, is⟩ := Option.map_eq_some_iff.1 h
      cases is
      unfold word? at word
      split at word <;> cases word <;> exact within_leaf trivial rfl
    next =>
      obtain ⟨⟨n, _⟩, -, is⟩ := Option.map_eq_some_iff.1 h
      cases is
      exact n.within_value

theorem sane_tokens {fuel : Nat} {g : List Glyph} {ts : List Token}
    (h : tokens fuel g = some ts) : ∀ t ∈ ts, t.Sane := by
  induction fuel generalizing g ts with
  | zero =>
    cases g with
    | nil =>
      cases h
      exact List.forall_mem_nil _
    | cons c g => cases h
  | succ fuel ih =>
    unfold tokens at h
    split at h
    next => 
      cases h
      exact List.forall_mem_nil _
    next => cases h
    next => cases h
    next heq =>
      cases heq
      split at h
      next => exact ih h
      next =>
        obtain ⟨⟨t, g⟩, scanned, h⟩ := Option.bind_eq_some_iff.1 h
        obtain ⟨more, rest, h⟩ := Option.bind_eq_some_iff.1 h
        cases h
        exact List.forall_mem_cons.2 ⟨sane_scan scanned, ih rest⟩

variable {room fuel : Nat} {ts : List Token}

theorem within_fitting {j : Json} (h : ∀ n, room = n + 1 → Within Word (n + 1) j) :
    Within Word room (value.fitting room j) := by
  cases room with
  | zero => exact within_leaf trivial rfl
  | succ n =>
    rw [fitting_of_pos j (Nat.succ_pos n)]
    exact h n rfl

theorem within_fitting_arr {xs : List Json} (h : ∀ x ∈ xs, Within Word (room - 1) x) :
    Within Word room (value.fitting room (.arr xs)) := by
  refine within_fitting fun n is => within_arr.2 ?_
  rwa [is, Nat.add_sub_cancel] at h

theorem within_fitting_obj {ms : Option (List (String × Json))}
    (h : ∀ l ∈ ms, ∀ m ∈ l, Within Word (room - 1) m.2) :
    Within Word room (value.fitting room (ms.elim .unfit .obj)) := by
  refine within_fitting fun n is => ?_
  rw [is, Nat.add_sub_cancel] at h
  cases ms with
  | none => exact within_leaf trivial rfl
  | some l => exact within_obj.2 (h l rfl)

/-- What is read is such, and what follows is sane. -/
def Yields {α : Type} (p : α → Prop) (r : Option (α × List Token)) : Prop :=
  ∀ a rest, r = some (a, rest) → p a ∧ ∀ t ∈ rest, t.Sane

namespace Yields

variable {α β : Type} {p : α → Prop} {q : β → Prop}

theorem none : Yields p none := by
  intro _ _ h
  cases h

theorem some {a : α} (h : p a) (sane : ∀ t ∈ ts, t.Sane) : Yields p (some (a, ts)) := by
  intro _ _ heq
  cases heq
  exact ⟨h, sane⟩

theorem map {r : Option (α × List Token)} {f : α × List Token → β × List Token} (h : Yields p r)
    (step : ∀ x, p x.1 → q (f x).1) (rest : ∀ x, (f x).2 = x.2) : Yields q (r.map f) := by
  intro b ts heq
  obtain ⟨x, read, is⟩ := Option.map_eq_some_iff.1 heq
  obtain ⟨such, sane⟩ := h _ _ read
  have value := step x such
  have follows : ts = x.2 := (congrArg Prod.snd is).symm.trans (rest x)
  rw [is] at value
  rw [follows]
  exact ⟨value, sane⟩

end Yields

def Items (room : Nat) (js : List Json) : Prop := ∀ j ∈ js, Within Word room j

def Members (room : Nat) (ms : Option (List (String × Json))) : Prop :=
  ∀ l ∈ ms, ∀ m ∈ l, Within Word room m.2

theorem yields_value
    (hitems : ∀ ts, (∀ t ∈ ts, t.Sane) → Yields (Items (room - 1)) (items fuel (room - 1) ts))
    (hmembers : ∀ ts, (∀ t ∈ ts, t.Sane) →
      Yields (Members (room - 1)) (members fuel (room - 1) ts))
    (sane : ∀ t ∈ ts, t.Sane) : Yields (Within Word room) (value (fuel + 1) room ts) := by
  unfold value
  split
  next => exact .none
  next s rest _ =>
    refine .some ?_ (List.forall_mem_cons.1 sane).2
    cases s <;> exact within_leaf trivial rfl
  next j rest _ =>
    obtain ⟨leaf, sane⟩ := List.forall_mem_cons.1 sane
    exact .some (leaf.mono (Nat.zero_le _)) sane
  next rest _ =>
    have sane := (List.forall_mem_cons.1 (List.forall_mem_cons.1 sane).2).2
    exact .some (within_fitting_arr (List.forall_mem_nil _)) sane
  next rest _ =>
    have sane := (List.forall_mem_cons.1 (List.forall_mem_cons.1 sane).2).2
    refine .some (@within_fitting_obj _ (Option.some []) fun l hl => ?_) sane
    cases hl
    exact List.forall_mem_nil _
  next rest _ heq =>
    cases heq
    have more := hitems rest (List.forall_mem_cons.1 sane).2
    exact more.map (fun _ => within_fitting_arr) fun _ => rfl
  next rest _ heq =>
    cases heq
    have more := hmembers rest (List.forall_mem_cons.1 sane).2
    exact more.map (fun _ => within_fitting_obj) fun _ => rfl
  next => exact .none

theorem yields_items (one : Yields (Within Word room) (value fuel room ts))
    (more : ∀ ts, (∀ t ∈ ts, t.Sane) → Yields (Items room) (items fuel room ts)) :
    Yields (Items room) (items (fuel + 1) room ts) := by
  rw [items]
  split
  next j rest heq =>
    obtain ⟨hj, sane⟩ := one j _ heq
    exact .some (List.forall_mem_singleton.2 hj) (List.forall_mem_cons.1 sane).2
  next j rest heq =>
    obtain ⟨hj, sane⟩ := one j _ heq
    exact (more rest (List.forall_mem_cons.1 sane).2).map
      (fun _ h => List.forall_mem_cons.2 ⟨hj, h⟩) fun _ => rfl
  next => exact .none

theorem yields_members
    (one : ∀ ts, (∀ t ∈ ts, t.Sane) → Yields (Within Word room) (value fuel room ts))
    (more : ∀ ts, (∀ t ∈ ts, t.Sane) → Yields (Members room) (members fuel room ts))
    (sane : ∀ t ∈ ts, t.Sane) : Yields (Members room) (members (fuel + 1) room ts) := by
  unfold members
  split
  next s rest heq =>
    cases heq
    replace one := one rest (List.forall_mem_cons.1 (List.forall_mem_cons.1 sane).2).2
    split
    next j rest heq =>
      obtain ⟨hj, sane⟩ := one j _ heq
      refine .some (fun l hl => ?_) (List.forall_mem_cons.1 sane).2
      obtain ⟨k, -, rfl⟩ := Option.map_eq_some_iff.1 hl
      exact List.forall_mem_singleton.2 hj
    next j rest heq =>
      obtain ⟨hj, sane⟩ := one j _ heq
      refine (more rest (List.forall_mem_cons.1 sane).2).map (fun ms h l hl => ?_) fun _ => rfl
      obtain ⟨ms, rest⟩ := ms
      cases s with
      | none => cases hl
      | some k =>
        cases ms with
        | none => cases hl
        | some l =>
          cases hl
          exact List.forall_mem_cons.2 ⟨hj, h l rfl⟩
    next => exact .none
  next => exact .none

theorem yields_parse (fuel room : Nat) (ts : List Token) (sane : ∀ t ∈ ts, t.Sane) :
    Yields (Within Word room) (value fuel room ts) ∧
      Yields (Items room) (items fuel room ts) ∧ Yields (Members room) (members fuel room ts) := by
  induction fuel generalizing room ts with
  | zero => exact ⟨.none, .none, .none⟩
  | succ fuel ih =>
    refine ⟨?_, ?_, ?_⟩
    · exact yields_value (fun ts sane => (ih (room - 1) ts sane).2.1)
        (fun ts sane => (ih (room - 1) ts sane).2.2) sane
    · exact yields_items (ih room ts sane).1 fun ts sane => (ih room ts sane).2.1
    · exact yields_members (fun ts sane => (ih room ts sane).1)
        (fun ts sane => (ih room ts sane).2.2) sane

end Token

theorem within_of_readGlyphs {g : List Glyph} {j : Json} (h : readGlyphs g = some j) :
    Within Word nestingLimit j := by
  obtain ⟨ts, lexed, h⟩ := Option.bind_eq_some_iff.1 h
  have sane := Token.sane_tokens lexed
  have yields := (Token.yields_parse (2 * ts.length + 1) nestingLimit ts sane).1
  split at h
  next read =>
    cases h
    exact (yields _ _ read).1
  next => cases h

end Tenancy.Json
