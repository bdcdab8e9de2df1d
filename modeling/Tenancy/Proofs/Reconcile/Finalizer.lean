import Tenancy.Reconcile.Finalizer

/-! Finalizers given and taken. Each way answers whether the list of finalizers has changed; where
it has not, the object is as it was and nothing is written. -/

namespace Tenancy

namespace Metadata

variable {m : Metadata} {f : String}

theorem addFinalizer_of_has (has : m.hasFinalizer f = true) : m.addFinalizer f = (false, m) :=
  if_pos has

theorem addFinalizer_of_lacks (lacks : m.hasFinalizer f = false) :
    m.addFinalizer f = (true, { m with finalizers := m.finalizers ++ [f] }) :=
  if_neg (Bool.eq_false_iff.1 lacks)

theorem removeFinalizer_of_lacks (lacks : m.hasFinalizer f = false) :
    m.removeFinalizer f = (false, m) := by
  have kept : m.finalizers.filter (· != f) = m.finalizers := by
    refine List.filter_eq_self.2 fun g hg => bne_iff_ne.2 ?_
    rintro rfl
    rw [hasFinalizer, List.contains_iff_mem.2 hg] at lacks
    cases lacks
  unfold removeFinalizer
  dsimp only
  rw [kept, bne_self_eq_false]

theorem removeFinalizer_of_has (has : m.hasFinalizer f = true) :
    m.removeFinalizer f = (true, { m with finalizers := m.finalizers.filter (· != f) }) := by
  have fewer : (m.finalizers.filter (· != f)).length < m.finalizers.length :=
    List.length_filter_lt_length_iff_exists.2 ⟨f, List.contains_iff_mem.1 has, by simp⟩
  unfold removeFinalizer
  dsimp only
  rw [bne_iff_ne.2 (Nat.ne_of_lt fewer)]

end Metadata

namespace Finalizer

variable {S : Type} [ResourceKind S]

theorem addInStore_eq (o : Resource S) : addInStore o =
    if o.hasOwnFinalizer then .done (o, .ok ())
    else .ask (o.withFinalizer (ResourceKind.finalizer S)) fun
      | .ok stored => .done (stored, .ok ())
      | .error e => .done (o.withFinalizer (ResourceKind.finalizer S), .error (.ofStore e)) := by
  unfold addInStore Resource.withFinalizer Resource.hasOwnFinalizer
  cases has : o.metadata.hasFinalizer (ResourceKind.finalizer S) with
  | true =>
    rw [Metadata.addFinalizer_of_has has]
    rfl
  | false =>
    rw [Metadata.addFinalizer_of_lacks has]
    refine congrArg (Program.ask _) (funext fun r => ?_)
    cases r <;> rfl

theorem removeInStore_eq (o : Resource S) : removeInStore o =
    if !o.hasOwnFinalizer then .done (o, .ok ())
    else .ask (o.withoutFinalizer (ResourceKind.finalizer S)) fun
      | .ok stored => .done (stored, .ok ())
      | .error e => .done (o.withoutFinalizer (ResourceKind.finalizer S),
          if e.isNotFound then .ok () else .error (.ofStore e)) := by
  unfold removeInStore Resource.withoutFinalizer Resource.hasOwnFinalizer
  cases has : o.metadata.hasFinalizer (ResourceKind.finalizer S) with
  | false =>
    rw [Metadata.removeFinalizer_of_lacks has]
    rfl
  | true =>
    rw [Metadata.removeFinalizer_of_has has]
    refine congrArg (Program.ask _) (funext fun r => ?_)
    cases r <;> rfl

end Finalizer
end Tenancy
