import Mathlib.Data.List.Infix
import Tenancy.Proofs.Store.Quiet
import Tenancy.Proofs.Store.Replay

/-! What a generation counts: the creation of the object, every update since that changed its
specification, and its mark. -/

namespace Tenancy

variable {S : Type} [ResourceKind S]

namespace Store

variable {s t : Store S} {w : Write S} {c : Option (Change S)} {k : Key} {o n : Resource S}

def respecifies (s : Store S) (k : Key) : Write S → Bool
  | .update o =>
    match s.get? k, (s.update o).store.get? k with
    | some c, some n => !(c.spec == n.spec)
    | _, _ => false
  | .create _ _ | .delete _ _ | .updateStatus _ => false

def writeAll (s : Store S) : List (Write S) → Store S
  | [] => s
  | w :: ws => (s.write w).store.writeAll ws

def respecifications (s : Store S) (k : Key) : List (Write S) → Nat
  | [] => 0
  | w :: ws => (s.respecifies k w).toNat + (s.write w).store.respecifications k ws

theorem writeAll_concat (s : Store S) (ws : List (Write S)) (w : Write S) :
    s.writeAll (ws ++ [w]) = ((s.writeAll ws).write w).store := by
  induction ws generalizing s with
  | nil => rfl
  | cons v ws ih => exact ih (s.write v).store

theorem respecifications_concat (s : Store S) (k : Key) (ws : List (Write S)) (w : Write S) :
    s.respecifications k (ws ++ [w]) =
      s.respecifications k ws + ((s.writeAll ws).respecifies k w).toNat := by
  induction ws generalizing s with
  | nil => exact Nat.add_comm ..
  | cons v ws ih => simp only [List.cons_append, respecifications, writeAll, ih, Nat.add_assoc]

theorem respecifies_of_eq (ho : s.get? k = some o) (hn : (s.write w).store.get? k = some n)
    (spec : (o.spec == n.spec) = true) : s.respecifies k w = false := by
  cases w with
  | create | delete | updateStatus => rfl
  | update u =>
    have hn : (s.update u).store.get? k = some n := hn
    simp only [respecifies, ho, hn, spec, Bool.not_true]

theorem Effect.created_of_absent (h : Effect s w c t) (keyed : s.Keyed) (absent : s.get? k = none)
    (hn : t.get? k = some n) :
    ∃ uid x, w = .create uid x ∧ x.key = k ∧ n = s.draw (x.born uid) := by
  have touch := h.touch keyed k
  rw [absent, hn] at touch
  cases touch with
  | @created uid x key => exact ⟨uid, x, rfl, key, rfl⟩

end Store

namespace History

open Store

theorem writeAll_after (ws vs : List (Write S)) :
    (after ws).store.writeAll vs = (after (ws ++ vs)).store := by
  induction vs using List.reverseRecOn with
  | nil => rw [List.append_nil]; rfl
  | append_singleton vs w ih =>
    rw [writeAll_concat, ih, ← List.append_assoc, after_concat]
    rfl

/-- The object of the key was created by the write between the two parts, and never went. -/
structure Lives (k : Key) (before : List (Write S)) (uid : Uid) (x : Resource S)
    (rest : List (Write S)) : Prop where
  key : x.key = k
  absent : (after before).store.get? k = none
  present : ∀ mid, mid <+: rest → (after (before ++ .create uid x :: mid)).store.get? k ≠ none

def revisions (k : Key) (before : List (Write S)) (uid : Uid) (x : Resource S)
    (rest : List (Write S)) : Nat :=
  (after (before ++ [.create uid x])).store.respecifications k rest

theorem revisions_concat (k : Key) (before : List (Write S)) (uid : Uid) (x : Resource S)
    (rest : List (Write S)) (w : Write S) :
    revisions k before uid x (rest ++ [w]) = revisions k before uid x rest +
      ((after (before ++ .create uid x :: rest)).store.respecifies k w).toNat := by
  unfold revisions
  rw [respecifications_concat, writeAll_after, List.append_assoc]
  rfl

theorem lives_concat {k : Key} {before rest : List (Write S)} {uid : Uid} {x : Resource S}
    (h : Lives k before uid x rest) {w : Write S}
    (stays : (after (before ++ .create uid x :: (rest ++ [w]))).store.get? k ≠ none) :
    Lives k before uid x (rest ++ [w]) := by
  refine ⟨h.key, h.absent, fun mid hmid => ?_⟩
  rcases List.prefix_concat_iff.1 hmid with rfl | hmid
  · exact stays
  · exact h.present mid hmid

theorem lives_of_stored (ws : List (Write S)) {k : Key} {o : Resource S}
    (stored : (after ws).store.get? k = some o) :
    ∃ before uid x rest, ws = before ++ .create uid x :: rest ∧ Lives k before uid x rest := by
  induction ws using List.reverseRecOn generalizing o with
  | nil =>
    have absent : (after ([] : List (Write S))).store.get? k = none := get?_empty k
    cases absent.symm.trans stored
  | append_singleton ws w ih =>
    cases before : (after ws).store.get? k with
    | none =>
      have made := stored
      rw [after_concat] at made
      obtain ⟨uid, x, rfl, key, -⟩ :=
        ((after ws).store.effect_write w).created_of_absent (keyed_after ws) before made
      refine ⟨ws, uid, x, [], rfl, ⟨key, before, fun mid hmid => ?_⟩⟩
      rw [List.prefix_nil.1 hmid]
      exact Option.ne_none_iff_exists'.2 ⟨_, stored⟩
    | some c =>
      obtain ⟨before', uid, x, rest, rfl, lives⟩ := ih before
      rw [List.append_assoc, List.cons_append] at stored ⊢
      exact ⟨before', uid, x, rest ++ [w], rfl,
        lives_concat lives (Option.ne_none_iff_exists'.2 ⟨o, stored⟩)⟩

/-- What holds of an object when it is created, and is kept by each write that leaves one under its
key, holds of it all its life. -/
theorem Lives.induction {k : Key} {before rest : List (Write S)} {uid : Uid} {x : Resource S}
    (lives : Lives k before uid x rest) {P : List (Write S) → Resource S → Prop}
    (born : P [] ((after before).store.draw (x.born uid)))
    (step : ∀ rest w o n, (after (before ++ .create uid x :: rest)).store.get? k = some o →
      ((after (before ++ .create uid x :: rest)).store.write w).store.get? k = some n →
      P rest o → P (rest ++ [w]) n)
    {o : Resource S} (stored : (after (before ++ .create uid x :: rest)).store.get? k = some o) :
    P rest o := by
  induction rest using List.reverseRecOn generalizing o with
  | nil =>
    rw [after_concat] at stored
    obtain ⟨_, _, made, -, rfl⟩ := ((after before).store.effect_write _).created_of_absent
      (keyed_after before) lives.absent stored
    cases made
    exact born
  | append_singleton rest w ih =>
    have earlier : rest <+: rest ++ [w] := List.prefix_append ..
    obtain ⟨c, hc⟩ := Option.ne_none_iff_exists'.1 (lives.present rest earlier)
    rw [← List.cons_append, ← List.append_assoc, after_concat] at stored
    refine step rest w c o hc stored (ih ⟨lives.key, lives.absent, fun mid hmid => ?_⟩ hc)
    exact lives.present mid (hmid.trans earlier)

theorem counts_concat {s : Store S} {k : Key} {w : Write S} {o n : Resource S} {m l : Nat}
    (ages : o.Ages w n) (ho : s.get? k = some o) (hn : (s.write w).store.get? k = some n)
    (generation : o.metadata.generation = .ofNat (1 + m + o.wasDeleted.toNat))
    (le : m + o.wasDeleted.toNat ≤ l) :
    n.metadata.generation =
        .ofNat (1 + (m + (s.respecifies k w).toNat) + n.wasDeleted.toNat) ∧
      m + (s.respecifies k w).toNat + n.wasDeleted.toNat ≤ l + 1 := by
  have next (g : Nat) : UInt64.ofNat g + 1 = .ofNat (g + 1) := (UInt64.ofNat_add g 1).symm
  cases ages with
  | same spec generation' mark =>
    rw [generation', generation, respecifies_of_eq ho hn spec, mark]
    exact ⟨rfl, le.trans (Nat.le_succ l)⟩
  | respecified u update spec generation' mark =>
    have counted : s.respecifies k w = true := by
      subst update
      have hn : (s.update u).store.get? k = some n := hn
      simp only [respecifies, ho, hn, spec, Bool.not_false]
    rw [generation', generation, counted, mark, next]
    refine ⟨congrArg UInt64.ofNat ?_, ?_⟩
    · rw [Bool.toNat_true]
      omega
    · rw [Bool.toNat_true]
      omega
  | marked spec generation' unmarked marked =>
    rw [unmarked] at generation le
    rw [generation', generation, respecifies_of_eq ho hn spec, marked, next]
    exact ⟨rfl, Nat.succ_le_succ le⟩

variable [ReflBEq S]

theorem generation_after (ws : List (Write S)) {k : Key} {o : Resource S}
    (stored : (after ws).store.get? k = some o) :
    ∃ before uid x rest, ws = before ++ .create uid x :: rest ∧ Lives k before uid x rest ∧
      o.metadata.generation =
        .ofNat (1 + revisions k before uid x rest + o.wasDeleted.toNat) ∧
      revisions k before uid x rest + o.wasDeleted.toNat ≤ rest.length := by
  obtain ⟨before, uid, x, rest, rfl, lives⟩ := lives_of_stored ws stored
  refine ⟨before, uid, x, rest, rfl, lives, ?_⟩
  refine lives.induction (P := fun rest o =>
    o.metadata.generation = .ofNat (1 + revisions k before uid x rest + o.wasDeleted.toNat) ∧
      revisions k before uid x rest + o.wasDeleted.toNat ≤ rest.length)
    ⟨rfl, Nat.le_refl 0⟩ ?_ stored
  rintro rest w o n ho hn ⟨generation, le⟩
  have effect := (after (before ++ .create uid x :: rest)).store.effect_write w
  rw [revisions_concat, List.length_append]
  exact counts_concat (effect.ages (keyed_after _) ho hn) ho hn generation le

end History
end Tenancy
