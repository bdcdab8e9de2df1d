import Tenancy.Organization
import Tenancy.Proofs.Wire.Values

/-! Where the strategies of what was decoded come from: parts of the text, none of them `null`. -/

namespace Tenancy

open Json Fields

variable {p : Json → Prop} {n : Nat} {j : Json}

structure Strategy.Drawn (p : Json → Prop) (n : Nat) (s : Strategy) : Prop where
  ne_null : s.value ≠ .null
  sound : All (· ≠ .unfit) s.value
  within : Within p n s.value

theorem Strategy.drawn {s : Strategy} (h : decode? j = some s) (given : j ≠ .null)
    (within : Within p n j) : s.Drawn p n := by
  unfold decode? at h
  split at h
  next sound =>
    cases h
    exact ⟨fun null => given (canonical_eq_null.1 null), (sound_iff.1 sound).canonical,
      within.leaves.canonical, Nat.le_trans (depth_canonical_le j) within.depth⟩
  next => cases h

theorem Strategy.drawn_of_optional? {fs : Fields} {name : String} {o : Option Strategy}
    (h : optional? fs name Strategy.decode? = some o) (within : ∀ f ∈ fs, Within p n f.2) :
    ∀ s ∈ o, s.Drawn p n := by
  rintro s rfl
  obtain ⟨j, mem, given, decoded⟩ := of_optional? h
  exact drawn decoded given (within _ mem)

theorem Observed.drawn {o : Observed} (h : decode? j = some o) (within : Within p (n + 1) j) :
    ∀ s ∈ o.strategy, s.Drawn p n := by
  simp only [decode?, Option.bind_eq_bind, Option.bind_eq_some_iff, Option.pure_def,
    Option.some.injEq] at h
  obtain ⟨fs, record, _, -, _, -, _, -, _, strategy, rfl⟩ := h
  exact Strategy.drawn_of_optional? strategy (within_record? record within)

theorem Status.drawn {slot : String} {s : Status} (h : decode? slot j = some s)
    (within : Within p (n + 2) j) : ∀ o ∈ s.observed, ∀ t ∈ o.strategy, t.Drawn p n := by
  simp only [decode?, Option.bind_eq_bind, Option.bind_eq_some_iff, Option.pure_def,
    Option.some.injEq] at h
  obtain ⟨fs, record, _, -, _, observed, rfl⟩ := h
  rintro o rfl
  obtain ⟨j, mem, -, decoded⟩ := of_optional? observed
  exact Observed.drawn decoded (within_openRecord? record within _ mem)

theorem OrganizationSpec.drawn {s : OrganizationSpec} (h : decode? j = some s)
    (within : Within p (n + 1) j) : ∀ t ∈ s.strategy, t.Drawn p n := by
  simp only [decode?, Option.bind_eq_bind, Option.bind_eq_some_iff, Option.pure_def,
    Option.some.injEq] at h
  obtain ⟨fs, record, _, -, _, -, _, strategy, rfl⟩ := h
  exact Strategy.drawn_of_optional? strategy (within_record? record within)

theorem DeploymentSpec.drawn {s : DeploymentSpec} {held : Bool} (h : decode? held j = some s)
    (within : Within p (n + 1) j) : ∀ t ∈ s.strategy, t.Drawn p n := by
  simp only [decode?, Option.bind_eq_bind, Option.bind_eq_some_iff, Option.pure_def,
    Option.some.injEq] at h
  obtain ⟨fs, record, _, -, _, -, _, -, _, -, _, -, _, strategy, rfl⟩ := h
  exact Strategy.drawn_of_optional? strategy (within_record? record within)

/-- What the wire asks of a kind of specification: it is read as it was written, and its strategies
are what was given as such. -/
structure ResourceKind.Legible (S : Type) [ResourceKind S] : Prop where
  slot : ResourceKind.slot S ≠ "conditions"
  blank : ResourceKind.strategy (ResourceKind.blank : S) = none
  within {n : Nat} {s : S} (h : ∀ t ∈ ResourceKind.strategy s, Within Exact (n + 2) t.value) :
    Within Exact (n + 3) (ResourceKind.encode s)
  back {s : S} (held : Bool) (h : ∀ t ∈ ResourceKind.strategy s, t.Portable) :
    ResourceKind.decode? held (ResourceKind.encode s) = some s
  drawn {p : Json → Prop} {n : Nat} {j : Json} {held : Bool} {s : S}
    (h : ResourceKind.decode? held j = some s) (within : Within p (n + 1) j) :
    ∀ t ∈ ResourceKind.strategy s, t.Drawn p n

variable {S : Type} [ResourceKind S]

def Resource.Drawn (p : Json → Prop) (n : Nat) (o : Resource S) : Prop :=
  (∀ t ∈ o.strategy, t.Drawn p (n + 1)) ∧ ∀ t ∈ o.stateStrategy, t.Drawn p n

theorem Resource.drawn (legible : ResourceKind.Legible S) {o : Resource S} {held : Bool}
    (h : decode? held j = some o) (within : Within p (n + 3) j) : o.Drawn p n := by
  simp only [decode?, Option.bind_eq_bind, Option.bind_eq_some_iff, Option.pure_def,
    Option.some.injEq] at h
  obtain ⟨fs, record, _, -, _, -, spec, declared, status, reported, rfl⟩ := h
  have within := within_openRecord? record within
  refine ⟨?_, fun t ht => ?_⟩
  · rcases of_withDefault? declared with rfl | ⟨j, mem, decoded⟩
    · intro t ht
      cases legible.blank.symm.trans ht
    · exact legible.drawn decoded (within _ mem)
  · rcases of_withDefault? reported with rfl | ⟨j, mem, decoded⟩
    · cases ht
    · cases given : status.observed with
      | none =>
        rw [stateStrategy, observed, given] at ht
        cases ht
      | some x =>
        rw [stateStrategy, observed, given] at ht
        exact Status.drawn decoded (within _ mem) x given t ht

namespace Change

theorem drawn_of_decodeBody? (legible : ResourceKind.Legible S) {op : Operation} {c : Change S}
    (h : decodeBody? op j = some c) (within : Within p (n + 4) j) :
    ∀ o ∈ c.objects, o.Drawn p n := by
  have object {fs : Fields} {name : String} {o : Resource S}
      (found : fs.required? name (Resource.decode? true) = some o)
      (within : ∀ f ∈ fs, Within p (n + 3) f.2) : o.Drawn p n := by
    obtain ⟨j, mem, decoded⟩ := of_required? found
    exact Resource.drawn legible decoded (within _ mem)
  cases op with
  | created | deleted | generic =>
    simp only [decodeBody?, Option.bind_eq_bind, Option.bind_eq_some_iff, Option.pure_def,
      Option.some.injEq] at h
    obtain ⟨fs, record, o, found, rfl⟩ := h
    exact List.forall_mem_singleton.2 (object found (within_record? record within))
  | updated =>
    simp only [decodeBody?, Option.bind_eq_bind, Option.bind_eq_some_iff, Option.pure_def,
      Option.some.injEq] at h
    obtain ⟨fs, record, old, found, new, found', rfl⟩ := h
    have within := within_record? record within
    exact List.forall_mem_cons.2 ⟨object found within,
      List.forall_mem_singleton.2 (object found' within)⟩

theorem drawn (legible : ResourceKind.Legible S) {c : Change S} (h : decode? j = some c)
    (within : Within p (n + 4) j) : ∀ o ∈ c.objects, o.Drawn p n := by
  unfold decode? at h
  split at h
  next =>
    split at h
    next ms _ =>
      simp only [Option.bind_eq_bind, Option.bind_eq_some_iff] at h
      obtain ⟨_, -, op, -, body⟩ := h
      refine drawn_of_decodeBody? legible body (within_obj.2 fun m hm => ?_)
      exact within_obj.1 within m (List.mem_filter.1 hm).1
    next s xs _ =>
      simp only [Option.bind_eq_bind, Option.bind_eq_some_iff] at h
      obtain ⟨op, -, body⟩ := h
      exact drawn_of_decodeBody? legible body
        (within_arr.2 fun x hx => within_arr.1 within x (List.mem_cons_of_mem _ hx))
    next => cases h
  next => cases h

end Change

end Tenancy
