import Tenancy.Json

/-!
Canonical values. Main statement: a canonical value is its own canonical form.
-/

namespace Tenancy.Json

def Ordered (ms : List (String × Json)) : Prop :=
  ms.Pairwise fun m n => compare m.1 n.1 = .lt

theorem mem_insertMember {k : String} {v : Json} {m : String × Json} :
    ∀ {ms : List (String × Json)}, m ∈ insertMember k v ms → m = (k, v) ∨ m ∈ ms
  | [], h => by simpa [insertMember] using h
  | (l, w) :: ms, h => by
    unfold insertMember at h
    split at h
    · simpa using h
    · simp only [List.mem_cons] at h ⊢
      rcases h with h | h
      · exact .inl h
      · exact .inr (.inr h)
    · rcases List.mem_cons.1 h with h | h
      · exact .inr (List.mem_cons.2 (.inl h))
      · rcases mem_insertMember h with h | h
        · exact .inl h
        · exact .inr (List.mem_cons_of_mem _ h)

theorem ordered_insertMember {k : String} {v : Json} :
    ∀ {ms : List (String × Json)}, Ordered ms → Ordered (insertMember k v ms)
  | [], _ => by simp [insertMember, Ordered]
  | (l, w) :: ms, h => by
    have hl := List.pairwise_cons.1 h
    unfold insertMember
    split
    · rename_i hk
      refine List.pairwise_cons.2 ⟨fun m hm => ?_, h⟩
      rcases List.mem_cons.1 hm with rfl | hm
      · exact hk
      · exact Std.TransCmp.lt_trans hk (hl.1 m hm)
    · rename_i hk
      have hk := Std.LawfulEqCmp.eq_of_compare hk
      subst hk
      exact List.pairwise_cons.2 hl
    · rename_i hk
      refine List.pairwise_cons.2 ⟨fun m hm => ?_, ordered_insertMember hl.2⟩
      rcases mem_insertMember hm with rfl | hm
      · exact Std.OrientedCmp.lt_of_gt hk
      · exact hl.1 m hm

theorem insertMember_of_forall_lt {k : String} {v : Json} :
    ∀ {ms : List (String × Json)}, (∀ m ∈ ms, compare m.1 k = .lt) →
      insertMember k v ms = ms ++ [(k, v)]
  | [], _ => rfl
  | (l, w) :: ms, h => by
    have hl : compare k l = .gt := Std.OrientedCmp.gt_of_lt (h (l, w) (by simp))
    simp only [insertMember, hl, List.cons_append]
    rw [insertMember_of_forall_lt fun m hm => h m (List.mem_cons_of_mem _ hm)]

def Settled (ms : List (String × Json)) : Prop :=
  Ordered ms ∧ ∀ m ∈ ms, canonical m.2 = m.2

theorem settled_insertMember {k : String} {v : Json} {ms : List (String × Json)}
    (h : Settled ms) (hv : canonical v = v) : Settled (insertMember k v ms) :=
  ⟨ordered_insertMember h.1, fun m hm => by
    rcases mem_insertMember hm with rfl | hm
    · exact hv
    · exact h.2 m hm⟩

theorem canonicalMembers_of_settled {done : List (String × Json)} :
    ∀ {ms : List (String × Json)}, Settled (done ++ ms) →
      canonicalMembers done ms = done ++ ms := by
  intro ms
  induction ms generalizing done with
  | nil => simp [canonicalMembers]
  | cons m ms ih =>
    intro h
    have hlt : ∀ n ∈ done, compare n.1 m.1 = .lt := fun n hn =>
      (List.pairwise_append.1 h.1).2.2 n hn m (by simp)
    rw [canonicalMembers, h.2 m (by simp), insertMember_of_forall_lt hlt, ih]
    · simp
    · simpa using h

mutual

theorem canonical_canonical : ∀ j : Json, canonical (canonical j) = canonical j
  | .null | .bool _ | .int _ | .double _ | .str _ | .unfit => rfl
  | .arr xs => by simp only [canonical, canonicalItems_canonicalItems xs]
  | .obj ms => by
    have nil : Settled [] := ⟨List.Pairwise.nil, by simp⟩
    have h := settled_canonicalMembers ms nil
    simp only [canonical]
    rw [canonicalMembers_of_settled (by simpa using h), List.nil_append]

theorem canonicalItems_canonicalItems :
    ∀ xs : List Json, canonicalItems (canonicalItems xs) = canonicalItems xs
  | [] => rfl
  | x :: xs => by
    simp only [canonicalItems, canonical_canonical x, canonicalItems_canonicalItems xs]

theorem settled_canonicalMembers {done : List (String × Json)} :
    ∀ ms : List (String × Json), Settled done → Settled (canonicalMembers done ms)
  | [], h => by simpa [canonicalMembers] using h
  | (_, v) :: ms, h => by
    rw [canonicalMembers]
    exact settled_canonicalMembers ms (settled_insertMember h (canonical_canonical v))

end

end Tenancy.Json
