import Mathlib.Data.UInt
import Tenancy.Organization
import Tenancy.Proofs.Store.Effect

/-! Runs of writes, and the versions that they draw. A store that has counted fewer than `2 ^ 64`
writes has drawn each version once, so a version that was superseded or removed never comes back.
Main statement: of all writers that hold one version at most one is accepted. -/

namespace Tenancy

variable {S : Type}

/-! ### Retired versions -/

namespace Store

structure Numbered (s : Store S) : Prop where
  keyed : s.Keyed
  pos : ∀ k o, s.get? k = some o → 0 < o.version.toNat
  le : ∀ k o, s.get? k = some o → o.version.toNat ≤ s.version.toNat
  injective : ∀ k l o p, s.get? k = some o → s.get? l = some p → o.version = p.version → k = l

theorem numbered_empty : (empty : Store S).Numbered := by
  refine ⟨keyed_empty, ?_, ?_, ?_⟩
  · intro k o ho
    rw [get?_empty] at ho
    cases ho
  · intro k o ho
    rw [get?_empty] at ho
    cases ho
  · intro k l o p ho
    rw [get?_empty] at ho
    cases ho

/-- The version was drawn, and no object has it any more. -/
structure Retired (v : UInt64) (s : Store S) : Prop where
  le : v.toNat ≤ s.version.toNat
  ne : ∀ k o, s.get? k = some o → o.version ≠ v

theorem version_put (s : Store S) (n : Resource S) (room : s.version.toNat + 1 < 2 ^ 64) :
    (s.put n).version.toNat = s.version.toNat + 1 := by
  show (s.version + 1).toNat = _
  rw [UInt64.toNat_add]
  exact Nat.mod_eq_of_lt room

namespace Turn

variable {s t : Store S} {k : Option Key}

theorem toNat_next {n : Resource S} (room : s.version.toNat + 1 < 2 ^ 64)
    (next : n.version = s.version + 1) : n.version.toNat = s.version.toNat + 1 :=
  next ▸ version_put s n room

theorem numbered (h : Turn s k t) (room : k ≠ none → s.version.toNat + 1 < 2 ^ 64)
    (hs : s.Numbered) : t.Numbered := by
  have keyed := h.keyed hs.keyed
  cases h with
  | rest => exact hs
  | put n next =>
    have room := room (by simp)
    have drawn := toNat_next room next
    have old {x : Key} {o : Resource S} (ho : (s.put n).get? x = some o) :
        n.key = x ∧ n = o ∨ n.key ≠ x ∧ s.get? x = some o := by
      rw [get?_put] at ho
      split at ho
      · rename_i hx
        exact .inl ⟨hx, Option.some.inj ho⟩
      · rename_i hx
        exact .inr ⟨hx, ho⟩
    -- the counter has not turned over, so that what it draws is above all versions
    have fresh {x : Key} {o : Resource S} (ho : s.get? x = some o) : n.version ≠ o.version := by
      intro he
      have := hs.le x o ho
      rw [← he] at this
      omega
    refine ⟨keyed, ?_, ?_, ?_⟩
    · intro x o ho
      rcases old ho with ⟨-, rfl⟩ | ⟨-, ho⟩
      · omega
      · exact hs.pos x o ho
    · intro x o ho
      rw [version_put s n room]
      rcases old ho with ⟨-, rfl⟩ | ⟨-, ho⟩
      · omega
      · exact (hs.le x o ho).trans (Nat.le_succ _)
    · intro x y o p ho hp hv
      rcases old ho with ⟨rfl, rfl⟩ | ⟨-, ho⟩
      · rcases old hp with ⟨rfl, -⟩ | ⟨-, hp⟩
        · rfl
        · exact absurd hv (fresh hp)
      · rcases old hp with ⟨-, rfl⟩ | ⟨-, hp⟩
        · exact absurd hv.symm (fresh ho)
        · exact hs.injective x y o p ho hp hv
  | remove =>
    have old {x l : Key} {o : Resource S} (ho : (s.remove l).get? x = some o) :
        s.get? x = some o := by
      rw [get?_remove] at ho
      split at ho
      · cases ho
      · exact ho
    exact ⟨keyed, fun x o ho => hs.pos x o (old ho), fun x o ho => hs.le x o (old ho),
      fun x y o p ho hp => hs.injective x y o p (old ho) (old hp)⟩

theorem retired (h : Turn s k t) (room : k ≠ none → s.version.toNat + 1 < 2 ^ 64) {v : UInt64}
    (hv : Retired v s) : Retired v t := by
  cases h with
  | rest => exact hv
  | put n next =>
    have room := room (by simp)
    have drawn := toNat_next room next
    refine ⟨(version_put s n room).symm ▸ hv.le.trans (Nat.le_succ _), fun x o ho => ?_⟩
    rw [get?_put] at ho
    split at ho
    · -- the new version is above all that were drawn, the retired one among them
      cases ho
      rintro rfl
      have := hv.le
      omega
    · exact hv.ne x o ho
  | remove =>
    refine ⟨hv.le, fun x o ho => ?_⟩
    rw [get?_remove] at ho
    split at ho
    · cases ho
    · exact hv.ne x o ho

theorem retires {x : Key} (h : Turn s (some x) t) (room : s.version.toNat + 1 < 2 ^ 64)
    (hs : s.Numbered) {c : Resource S} (hc : s.get? x = some c) : Retired c.version t := by
  have others (y : Key) (hy : y ≠ x) (o : Resource S) (ho : s.get? y = some o) :
      o.version ≠ c.version := fun hv => hy (hs.injective y x o c ho hc hv)
  have le := hs.le x c hc
  cases h with
  | put n next =>
    have drawn := toNat_next room next
    refine ⟨(version_put s n room).symm ▸ le.trans (Nat.le_succ _), fun y o ho => ?_⟩
    rw [get?_put] at ho
    split at ho
    · cases ho
      intro hv
      rw [hv] at drawn
      omega
    · rename_i hy
      exact others y (Ne.symm hy) o ho
  | remove =>
    refine ⟨le, fun y o ho => ?_⟩
    rw [get?_remove] at ho
    split at ho
    · cases ho
    · rename_i hy
      exact others y (Ne.symm hy) o ho

theorem current_or_retired (h : Turn s k t) (room : k ≠ none → s.version.toNat + 1 < 2 ^ 64)
    (hs : s.Numbered) {x : Key} {c : Resource S} (hc : s.get? x = some c) :
    t.get? x = some c ∨ Retired c.version t := by
  by_cases hx : k = some x
  · subst hx
    exact .inr (h.retires (room (by simp)) hs hc)
  · rw [h.get?_eq hx]
    exact .inl hc

end Turn
end Store

/-! ### Runs -/

structure History (S : Type) where
  store : Store S
  log : List (Change S)

namespace History

def empty : History S := ⟨.empty, []⟩

variable [ResourceKind S]

def write (h : History S) (w : Write S) : History S :=
  ⟨(h.store.write w).store, h.log ++ (h.store.write w).change.toList⟩

def after (ws : List (Write S)) : History S := ws.foldl write empty

theorem after_concat (ws : List (Write S)) (w : Write S) : after (ws ++ [w]) = (after ws).write w :=
  List.foldl_concat write empty w ws

theorem log_length_mono (ws vs : List (Write S)) :
    (after ws).log.length ≤ (after (ws ++ vs)).log.length := by
  induction vs using List.reverseRecOn with
  | nil => rw [List.append_nil]
  | append_singleton vs w ih =>
    rw [← List.append_assoc, after_concat, write, List.length_append]
    exact ih.trans (Nat.le_add_right _ _)

theorem log_length_le (ws : List (Write S)) : (after ws).log.length ≤ ws.length := by
  induction ws using List.reverseRecOn with
  | nil => exact Nat.le_refl 0
  | append_singleton ws w ih =>
    rw [after_concat, write, List.length_append, List.length_append]
    exact Nat.add_le_add ih Option.length_toList_le

theorem keyed_after (ws : List (Write S)) : (after ws).store.Keyed := by
  induction ws using List.reverseRecOn with
  | nil => exact Store.keyed_empty
  | append_singleton ws w ih =>
    rw [after_concat]
    exact (Store.turn_write ih w).keyed ih

theorem turn_concat (ws : List (Write S)) (w : Write S) :
    ∃ k, Store.Turn (after ws).store k (after (ws ++ [w])).store ∧
      (k ≠ none → (after (ws ++ [w])).log.length = (after ws).log.length + 1) := by
  rw [after_concat]
  refine ⟨_, Store.turn_write (keyed_after ws) w, fun h => ?_⟩
  rw [write, List.length_append]
  cases hc : ((after ws).store.write w).change with
  | none => simp [hc] at h
  | some c => rfl

theorem numbered_and_counted {ws : List (Write S)} (room : (after ws).log.length < 2 ^ 64) :
    (after ws).store.Numbered ∧ (after ws).store.version.toNat ≤ (after ws).log.length := by
  induction ws using List.reverseRecOn with
  | nil => exact ⟨Store.numbered_empty, Nat.le_refl 0⟩
  | append_singleton ws w ih =>
    have mono := log_length_mono ws [w]
    obtain ⟨numbered, counted⟩ := ih (mono.trans_lt room)
    obtain ⟨k, turn, grows⟩ := turn_concat ws w
    refine ⟨turn.numbered (fun hk => by have := grows hk; omega) numbered, ?_⟩
    generalize (after (ws ++ [w])).store = t at turn ⊢
    cases turn with
    -- a removal is made known, but draws no version
    | rest | remove => exact counted.trans mono
    | put n =>
      have := grows (by simp)
      rw [Store.version_put _ _ (by omega)]
      omega

theorem turn_of_room {ws : List (Write S)} {w : Write S}
    (room : (after (ws ++ [w])).log.length < 2 ^ 64) :
    ∃ k, Store.Turn (after ws).store k (after (ws ++ [w])).store ∧
      (k ≠ none → (after ws).store.version.toNat + 1 < 2 ^ 64) := by
  obtain ⟨numbered, counted⟩ := numbered_and_counted ((log_length_mono ws [w]).trans_lt room)
  obtain ⟨k, turn, grows⟩ := turn_concat ws w
  exact ⟨k, turn, fun hk => by have := grows hk; omega⟩

theorem retired_append {ws vs : List (Write S)} {v : UInt64}
    (room : (after (ws ++ vs)).log.length < 2 ^ 64) (h : Store.Retired v (after ws).store) :
    Store.Retired v (after (ws ++ vs)).store := by
  induction vs using List.reverseRecOn with
  | nil => rwa [List.append_nil]
  | append_singleton vs w ih =>
    rw [← List.append_assoc] at room ⊢
    obtain ⟨k, turn, room'⟩ := turn_of_room room
    exact turn.retired room' (ih ((log_length_mono _ _).trans_lt room))

theorem current_or_retired_append {ws vs : List (Write S)} {k : Key} {c : Resource S}
    (room : (after (ws ++ vs)).log.length < 2 ^ 64) (h : (after ws).store.get? k = some c) :
    (after (ws ++ vs)).store.get? k = some c ∨
      Store.Retired c.version (after (ws ++ vs)).store := by
  induction vs using List.reverseRecOn with
  | nil => exact .inl (by rwa [List.append_nil])
  | append_singleton vs w ih =>
    rw [← List.append_assoc] at room ⊢
    have room₀ := (log_length_mono (ws ++ vs) [w]).trans_lt room
    obtain ⟨x, turn, room'⟩ := turn_of_room room
    rcases ih room₀ with ih | ih
    · exact turn.current_or_retired room' (numbered_and_counted room₀).1 ih
    · exact .inr (turn.retired room' ih)

theorem retired_of_change {ws : List (Write S)} {w : Write S} {k : Key} {c : Resource S}
    (room : (after (ws ++ [w])).log.length < 2 ^ 64) (stored : (after ws).store.get? k = some c)
    (change : ((after ws).store.write w).change.map (·.key) = some k) :
    Store.Retired c.version (after (ws ++ [w])).store := by
  obtain ⟨numbered, counted⟩ := numbered_and_counted ((log_length_mono ws [w]).trans_lt room)
  have turn := Store.turn_write (keyed_after ws) w
  rw [change] at turn
  rw [after_concat]
  refine turn.retires ?_ numbered stored
  rw [after_concat, write, List.length_append] at room
  cases hc : ((after ws).store.write w).change with
  | none => simp [hc] at change
  | some d =>
    rw [hc] at room
    simp only [Option.toList_some, List.length_singleton] at room
    omega

theorem retired_of_isOk {ws : List (Write S)} {w : Write S} {o : Resource S}
    (room : (after (ws ++ [w])).log.length < 2 ^ 64) (held : w.held? = some o)
    (ok : ((after ws).store.write w).answer.isOk) :
    Store.Retired o.version (after (ws ++ [w])).store := by
  obtain ⟨c, stored, current⟩ := (Store.isOk_write_iff held).1 ok
  have change := Store.key_change_of_isOk (keyed_after ws) held ok
  exact current ▸ retired_of_change room stored change

/-- Versions decide who may write, and none comes back: of those who hold one version at most one
is accepted, and nobody is who holds a copy from before a deletion. -/
theorem no_lost_update {ws : List (Write S)} (room : (after ws).log.length < 2 ^ 64) :
    (∀ before w o, before ++ [w] <+: ws → w.held? = some o →
      (((after before).store.write w).answer.isOk ↔
        ∃ c, (after before).store.get? o.key = some c ∧ o.version = c.version)) ∧
    (∀ before mid rest k c, ws = before ++ mid ++ rest →
      (after before).store.get? k = some c → (after (before ++ mid)).store.get? k ≠ some c →
      ∀ x o, (after ws).store.get? x = some o → o.version ≠ c.version) ∧
    (∀ before v mid w rest o p, ws = before ++ [v] ++ mid ++ [w] ++ rest →
      v.held? = some o → w.held? = some p → o.version = p.version →
      ((after before).store.write v).answer.isOk →
      ¬((after (before ++ [v] ++ mid)).store.write w).answer.isOk) ∧
    (∀ before mid rest w tail k c o, ws = before ++ mid ++ rest ++ [w] ++ tail →
      (after before).store.get? k = some c → (after (before ++ mid)).store.get? k = none →
      w.held? = some o → o.version = c.version →
      ¬((after (before ++ mid ++ rest)).store.write w).answer.isOk) := by
  have refused {vs : List (Write S)} {w : Write S} {o : Resource S} (held : w.held? = some o)
      (retired : Store.Retired o.version (after vs).store) :
      ¬((after vs).store.write w).answer.isOk := by
    intro ok
    obtain ⟨c, stored, current⟩ := (Store.isOk_write_iff held).1 ok
    exact retired.ne o.key c stored current.symm
  refine ⟨fun before w o _ held => Store.isOk_write_iff held, ?_, ?_, ?_⟩
  · rintro before mid rest k c rfl stored superseded x o ho
    have room' := (log_length_mono (before ++ mid) rest).trans_lt room
    have retired := (current_or_retired_append room' stored).resolve_left superseded
    exact (retired_append room retired).ne x o ho
  · rintro before v mid w rest o p rfl hv hw same ok
    have room' := (log_length_mono _ rest).trans_lt room
    have room' := (log_length_mono _ [w]).trans_lt room'
    have retired := retired_of_isOk ((log_length_mono _ mid).trans_lt room') hv ok
    exact refused hw (same ▸ retired_append room' retired)
  · rintro before mid rest w tail k c o rfl stored gone hw same
    have room' := (log_length_mono _ tail).trans_lt room
    have room' := (log_length_mono _ [w]).trans_lt room'
    have room'' := (log_length_mono _ rest).trans_lt room'
    have retired := (current_or_retired_append room'' stored).resolve_left (by simp [gone])
    exact refused hw (same ▸ retired_append room' retired)

theorem no_lost_update_reborn :
    ∃ c d : Organization,
      (after [.create ⟨1⟩ (.new "a" "b")]).store.get? ⟨"a", "b"⟩ = some c ∧
      (after [.create ⟨1⟩ (.new "a" "b"), .delete .epoch ⟨"a", "b"⟩,
        .create ⟨2⟩ c]).store.get? ⟨"a", "b"⟩ = some d ∧
      ¬((after [.create ⟨1⟩ (.new "a" "b"), .delete .epoch ⟨"a", "b"⟩,
        .create ⟨2⟩ c]).store.write (.update c)).answer.isOk := by
  have born : Store.get? (after [.create ⟨1⟩ (.new (S := OrganizationSpec) "a" "b")]).store
    ⟨"a", "b"⟩ = some (Store.empty.draw ((Resource.new "a" "b").born ⟨1⟩)) := rfl
  refine ⟨_, _, born, rfl, ?_⟩
  generalize Store.empty.draw _ = c at born
  have room : (after [.create ⟨1⟩ (.new "a" "b"), .delete .epoch ⟨"a", "b"⟩, .create ⟨2⟩ c,
      .update c]).log.length < 2 ^ 64 := (log_length_le _).trans_lt (by simp)
  obtain ⟨-, -, -, refused⟩ := no_lost_update room
  exact refused [_] [_] [_] _ [] _ c c rfl born rfl rfl rfl

end History
end Tenancy
