import Mathlib.Data.List.Basic
import Tenancy.Fanout

/-! Fan-out misses no deployment: a listed one is concerned exactly if it is named after a version
of the organization that the change carries. Those of the old version come first. -/

namespace Tenancy

namespace Change

variable {S : Type}

def earliest : Change S → Resource S
  | created o | deleted o | generic o => o
  | updated old _ => old

theorem latest_mem_objects (c : Change S) : c.latest ∈ c.objects := by
  cases c <;> simp [latest, objects]

end Change

namespace Fanout

variable {k : Key}

theorem mem_children {ds : List Deployment} {o : Organization} :
    k ∈ children ds o ↔ ∃ d ∈ ds, d.organizationName = Organization.title o ∧ d.key = k := by
  simp only [children, List.mem_map, List.mem_filter, beq_iff_eq, and_assoc]

theorem mem_merge {ks more : List Key} : k ∈ merge ks more ↔ k ∈ ks ∨ k ∈ more := by
  unfold merge
  induction more generalizing ks with
  | nil => simp
  | cons x xs ih =>
    rw [List.foldl_cons, ih, List.mem_cons, ← or_assoc]
    split
    · rename_i h
      have hx : x ∈ ks := List.contains_iff_mem.1 h
      constructor
      · rintro (h | h)
        · exact .inl (.inl h)
        · exact .inr h
      · rintro ((h | rfl) | h)
        · exact .inl h
        · exact .inl hx
        · exact .inr h
    · rw [List.mem_append, List.mem_singleton]

theorem mem_keys {ds : List Deployment} {c : Change OrganizationSpec} :
    k ∈ keys ds c ↔
      ∃ o ∈ c.objects, ∃ d ∈ ds, d.organizationName = Organization.title o ∧ d.key = k := by
  have fold (os : List Organization) (ks : List Key) :
      k ∈ os.foldl (fun ks o => merge ks (children ds o)) ks ↔
        k ∈ ks ∨ ∃ o ∈ os, k ∈ children ds o := by
    induction os generalizing ks with
    | nil => simp
    | cons o os ih => rw [List.foldl_cons, ih, mem_merge, List.exists_mem_cons_iff, or_assoc]
  unfold keys
  simp only [fold, List.not_mem_nil, false_or, mem_children]

theorem merge_of_nodup {ks more : List Key} (nodup : more.Nodup) :
    merge ks more = ks ++ more.filter fun k => !ks.contains k := by
  unfold merge
  induction more generalizing ks with
  | nil => simp
  | cons x xs ih =>
    obtain ⟨hx, nodup⟩ := List.nodup_cons.1 nodup
    rw [List.foldl_cons, ih nodup]
    by_cases held : ks.contains x = true
    · rw [if_pos held, List.filter_cons_of_neg (by simpa using held)]
    · have others : ∀ k ∈ xs, (!(ks ++ [x]).contains k) = !ks.contains k := by
        intro k hk
        have ne : k ≠ x := fun h => hx (h ▸ hk)
        simp [ne]
      rw [if_neg held, List.filter_cons_of_pos (by simpa using held), List.filter_congr others,
        List.append_assoc]
      rfl

theorem keys_eq {ds : List Deployment} (nodup : ∀ o, (children ds o).Nodup)
    (c : Change OrganizationSpec) :
    keys ds c = children ds c.earliest ++
      (children ds c.latest).filter fun k => !(children ds c.earliest).contains k := by
  have alone (o : Organization) : merge [] (children ds o) = children ds o := by
    simp [merge_of_nodup (nodup o)]
  have none (ks : List Key) : (ks.filter fun k => !ks.contains k) = [] := by
    simp [List.filter_eq_nil_iff]
  cases c with
  | created o | deleted o | generic o =>
    show merge [] (children ds o) = _
    rw [alone, Change.earliest, Change.latest, none, List.append_nil]
  | updated old new =>
    show merge (merge [] (children ds old)) (children ds new) = _
    rw [alone, merge_of_nodup (nodup new)]
    rfl

end Fanout
end Tenancy
