import Mathlib.Data.List.Basic
import Tenancy.Register

/-! Sets of registers and the lists that they are kept in. A list gives a set its first binding of
each kind, a set is listed in the order of its kinds, and nothing is lost on the way through a list
and back. What a child inherits does not depend on how its ancestors are grouped, on the order in
which their bindings come, or on whether they come again. -/

namespace Tenancy

def Register.first? (bindings : List Register) (kind : String) : Option String :=
  (bindings.find? (·.kind == kind)).map (·.name)

theorem Register.first?_append (xs ys : List Register) (kind : String) :
    first? (xs ++ ys) kind = (first? xs kind).or (first? ys kind) := by
  unfold first?
  rw [List.find?_append, Option.map_or]

namespace Registers

variable {rs : Registers}

theorem getElem?_insertIfNew (own : Registers) (r : Register) (kind : String) :
    (own.insertIfNew r.kind r.name)[kind]? = own[kind]?.or (Register.first? [r] kind) := by
  rw [Std.ExtTreeMap.getElem?_insertIfNew]
  by_cases same : r.kind = kind
  · subst same
    cases held : own[r.kind]? <;>
      simp [held, Register.first?, Std.ExtTreeMap.mem_iff_isSome_getElem?]
  · simp [same, Register.first?]

theorem getElem?_ofList (bindings : List Register) (kind : String) :
    (ofList bindings)[kind]? = Register.first? bindings kind := by
  -- bindings that are there already come before those of the list
  have fold (start : Registers) :
      (bindings.foldl (fun rs r => rs.insertIfNew r.kind r.name) start)[kind]? =
        start[kind]?.or (Register.first? bindings kind) := by
    induction bindings generalizing start with
    | nil => exact Option.or_none.symm
    | cons r bindings ih =>
      rw [List.foldl_cons, ih, getElem?_insertIfNew, Option.or_assoc, ← Register.first?_append,
        List.singleton_append]
  exact (fold ∅).trans (by simp)

theorem mem_bindings {r : Register} : r ∈ rs.bindings ↔ rs[r.kind]? = some r.name := by
  rw [← Std.ExtTreeMap.mem_toList_iff_getElem?_eq_some]
  constructor
  · intro h
    obtain ⟨p, hp, rfl⟩ := List.mem_map.1 h
    exact hp
  · intro h
    exact List.mem_map.2 ⟨_, h, rfl⟩

theorem ordered_bindings (rs : Registers) : rs.bindings.Pairwise (·.kind < ·.kind) := by
  have ordered : rs.toList.Pairwise fun p q => compare p.1 q.1 = .lt :=
    Std.ExtTreeMap.ordered_keys_toList
  exact List.pairwise_map.2 (ordered.imp fun h => compareOfLessAndEq_eq_lt.1 h)

theorem ofList_of_perm {order : List Register} (perm : order.Perm rs.bindings) :
    ofList order = rs := by
  apply Std.ExtTreeMap.ext_getElem?
  intro kind
  rw [getElem?_ofList]
  unfold Register.first?
  cases found : order.find? (·.kind == kind) with
  | none =>
    cases bound : rs[kind]? with
    | none => rfl
    | some name =>
      have listed : (⟨kind, name⟩ : Register) ∈ order := perm.mem_iff.2 (mem_bindings.2 bound)
      exact absurd (beq_self_eq_true kind) (List.find?_eq_none.1 found _ listed)
  | some r =>
    obtain rfl : r.kind = kind := beq_iff_eq.1 (List.find?_some found :)
    exact (mem_bindings.1 (perm.mem_iff.1 (List.mem_of_find?_eq_some found))).symm

@[simp] theorem ofList_bindings (rs : Registers) : ofList rs.bindings = rs :=
  ofList_of_perm (.refl _)

theorem mem_bindings_inherit {parent own : List Register} {r : Register} :
    r ∈ ((ofList parent).inherit (ofList own)).bindings ↔
      (Register.first? own r.kind).or (Register.first? parent r.kind) = some r.name := by
  rw [mem_bindings, getElem?_inherit, getElem?_ofList, getElem?_ofList]

/-! ### Laws of inheriting -/

theorem ofList_append (xs ys : List Register) :
    ofList (xs ++ ys) = (ofList ys).inherit (ofList xs) := by
  apply Std.ExtTreeMap.ext_getElem?
  intro kind
  rw [getElem?_inherit, getElem?_ofList, getElem?_ofList, getElem?_ofList, Register.first?_append]

theorem inherit_assoc (a b c : Registers) :
    a.inherit (b.inherit c) = (a.inherit b).inherit c := by
  apply Std.ExtTreeMap.ext_getElem?
  intro kind
  simp only [getElem?_inherit, Option.or_assoc]

theorem inherit_self_inherit (a b : Registers) : a.inherit (a.inherit b) = a.inherit b := by
  apply Std.ExtTreeMap.ext_getElem?
  intro kind
  rw [getElem?_inherit, getElem?_inherit, Option.or_assoc, Option.or_self]

theorem inherit_singleton (r : Register) (own : Registers) :
    (ofList [r]).inherit own = own.insertIfNew r.kind r.name := by
  apply Std.ExtTreeMap.ext_getElem?
  intro kind
  rw [getElem?_inherit, getElem?_ofList, getElem?_insertIfNew]

theorem foldl_inherit (order : List Register) (own : Registers) :
    order.foldl (fun own r => (ofList [r]).inherit own) own = (ofList order).inherit own := by
  induction order generalizing own with
  | nil =>
    apply Std.ExtTreeMap.ext_getElem?
    intro kind
    rw [List.foldl_nil, getElem?_inherit, getElem?_ofList]
    exact Option.or_none.symm
  | cons r order ih =>
    calc (r :: order).foldl (fun own r => (ofList [r]).inherit own) own
        = (ofList order).inherit ((ofList [r]).inherit own) := ih _
      _ = ((ofList order).inherit (ofList [r])).inherit own := inherit_assoc ..
      _ = (ofList (r :: order)).inherit own := by rw [← ofList_append, List.singleton_append]

theorem getElem?_inherit_ite (parent own : Registers) (kind : String) :
    (parent.inherit own)[kind]? = if kind ∈ own then own[kind]? else parent[kind]? := by
  rw [getElem?_inherit]
  split
  · rename_i bound
    obtain ⟨name, h⟩ := Option.isSome_iff_exists.1 (Std.ExtTreeMap.mem_iff_isSome_getElem?.1 bound)
    rw [h, Option.some_or]
  · rename_i unbound
    rw [Std.ExtTreeMap.getElem?_eq_none unbound, Option.none_or]

theorem nodup_kinds (rs : Registers) : (rs.bindings.map (·.kind)).Nodup :=
  List.pairwise_map.2 (rs.ordered_bindings.imp fun less => String.ne_of_lt less)

structure Laws (a b c : Registers) (xs ys : List Register) : Prop where
  bound (kind : String) : (a.inherit b)[kind]? = if kind ∈ b then b[kind]? else a[kind]?
  assoc : a.inherit (b.inherit c) = (a.inherit b).inherit c
  again : a.inherit (a.inherit b) = a.inherit b
  single (r : Register) : (ofList [r]).inherit b = b.insertIfNew r.kind r.name
  /-- The bindings of the parent may come one at a time, in any order. -/
  piecemeal (order : List Register) : order.Perm a.bindings →
    order.foldl (fun own r => (ofList [r]).inherit own) b = a.inherit b
  append : ofList (xs ++ ys) = (ofList ys).inherit (ofList xs)
  back : ofList a.bindings = a
  ordered : a.bindings.Pairwise (·.kind < ·.kind)
  sorted : (ofList xs).bindings.Pairwise (·.kind < ·.kind)
  distinct : ((ofList xs).bindings.map (·.kind)).Nodup

theorem inherit_laws (a b c : Registers) (xs ys : List Register) : Laws a b c xs ys where
  bound := getElem?_inherit_ite a b
  assoc := inherit_assoc a b c
  again := inherit_self_inherit a b
  single r := inherit_singleton r b
  piecemeal order perm := by rw [foldl_inherit, ofList_of_perm perm]
  append := ofList_append xs ys
  back := ofList_bindings a
  ordered := ordered_bindings a
  sorted := ordered_bindings _
  distinct := nodup_kinds _

theorem inherit_laws_shuffled :
    let parent := ofList [⟨"as", "as-a"⟩, ⟨"ipam", "pool-a"⟩]
    let own := ofList [⟨"ipam", "pool-b"⟩]
    let order : List Register := [⟨"ipam", "pool-a"⟩, ⟨"as", "as-a"⟩]
    order.Perm parent.bindings ∧
      order.foldl (fun own r => (ofList [r]).inherit own) own = parent.inherit own ∧
      (parent.inherit own).bindings = [⟨"as", "as-a"⟩, ⟨"ipam", "pool-b"⟩] := by
  intro parent own order
  have perm : order.Perm parent.bindings := by decide +kernel
  exact ⟨perm, (inherit_laws parent own own [] []).piecemeal order perm, by decide +kernel⟩

end Registers
end Tenancy
