import Tenancy.Proofs.Equality
import Tenancy.Proofs.Store.Listing
import Tenancy.Proofs.Store.Quiet

/-! What a deployment comes to, and what that depends on: its mark and specification, and the
organizations of its name. While these stay alike, an observed state that was right stays right. -/

namespace Tenancy

def Key.organization (k : Key) : String := (splitDeploymentName k.name).1

/-! ### Verdicts -/

namespace Deployment

def verdict (d : Deployment) (organizations : List Organization) : Observed :=
  match d.parent? organizations with
  | none => .down noOrganization
  | some parent => d.effective parent

/-- Deployments of one key with equal specifications come to the same below organizations that are
alike as far as they have their name. -/
theorem verdict_congr {d e : Deployment} {s t : Store OrganizationSpec} (key : d.key = e.key)
    (spec : (d.spec == e.spec) = true) (hs : s.Keyed) (ht : t.Keyed)
    (parents : ∀ l, l.name = d.key.organization → Option.Rel Resource.Like (s.get? l) (t.get? l)) :
    (d.verdict s.list == e.verdict t.list) = true := by
  have found := Store.find?_list_rel (f := fun l => l.name == d.key.organization) hs ht
    fun l hl => parents l (beq_iff_eq.1 hl)
  have names : e.key.organization = d.key.organization := by rw [key]
  have hd : d.parent? s.list = s.list.find? fun o => o.key.name == d.key.organization := rfl
  have he : e.parent? t.list = t.list.find? fun o => o.key.name == d.key.organization := by
    rw [← names]
    rfl
  unfold verdict
  rw [hd, he]
  generalize List.find? _ s.list = p at found
  generalize List.find? _ t.list = q at found
  cases found with
  | none => exact BEq.refl _
  | some like => exact effective_congr spec like.2

end Deployment

/-! ### Stores -/

structure Stores where
  deps : Store DeploymentSpec
  orgs : Store OrganizationSpec

namespace Stores

variable {k : Key} {a b c : Stores}

/-- Nothing has changed that a deployment comes to: it is there as before, and then the
organizations of its name are. -/
structure Alike (k : Key) (a b : Stores) : Prop where
  keyed : (a.deps.Keyed ∧ a.orgs.Keyed) ∧ b.deps.Keyed ∧ b.orgs.Keyed
  own : Option.Rel Resource.Like (a.deps.get? k) (b.deps.get? k)
  parents : a.deps.get? k ≠ none → ∀ l, l.name = k.organization →
    Option.Rel Resource.Like (a.orgs.get? l) (b.orgs.get? l)

theorem Alike.refl (hd : a.deps.Keyed) (ho : a.orgs.Keyed) : Alike k a a :=
  ⟨⟨⟨hd, ho⟩, hd, ho⟩, Resource.Like.option_refl _, fun _ _ _ => Resource.Like.option_refl _⟩

theorem Alike.present (h : Alike k a b) : a.deps.get? k ≠ none ↔ b.deps.get? k ≠ none := by
  have own := h.own
  generalize a.deps.get? k = o at own ⊢
  generalize b.deps.get? k = p at own ⊢
  cases own <;> simp

theorem Alike.trans (h : Alike k a b) (h' : Alike k b c) : Alike k a c :=
  ⟨⟨h.keyed.1, h'.keyed.2⟩, Resource.Like.option_trans h.own h'.own, fun ha l hl =>
    Resource.Like.option_trans (h.parents ha l hl) (h'.parents (h.present.1 ha) l hl)⟩

theorem Alike.back (h : Alike k a b) {e : Deployment} (he : b.deps.get? k = some e) :
    ∃ d, a.deps.get? k = some d ∧ d.Like e :=
  rel_some_right (he ▸ h.own)

theorem Alike.forth (h : Alike k a b) {d : Deployment} (hd : a.deps.get? k = some d) :
    ∃ e, b.deps.get? k = some e ∧ d.Like e :=
  rel_some_left (hd ▸ h.own)

theorem Alike.verdict (h : Alike k a b) {x y : Deployment} (hx : x.key = k) (hy : y.key = k)
    (spec : (x.spec == y.spec) = true) (present : a.deps.get? k ≠ none) :
    (Deployment.verdict x a.orgs.list == Deployment.verdict y b.orgs.list) = true :=
  Deployment.verdict_congr (hx.trans hy.symm) spec h.keyed.1.2 h.keyed.2.2 fun l hl =>
    h.parents present l (hx ▸ hl)

/-- Nothing has changed of the deployment, not even what was observed of it. -/
structure Untouched (k : Key) (a b : Stores) : Prop extends Alike k a b where
  observed : (a.deps.get? k).map (·.status.observed) = (b.deps.get? k).map (·.status.observed)

theorem Untouched.refl (hd : a.deps.Keyed) (ho : a.orgs.Keyed) : Untouched k a a :=
  ⟨.refl hd ho, rfl⟩

theorem Untouched.trans (h : Untouched k a b) (h' : Untouched k b c) : Untouched k a c :=
  ⟨h.toAlike.trans h'.toAlike, h.observed.trans h'.observed⟩

def Fulfilled (k : Key) (a : Stores) : Prop :=
  ∀ d, a.deps.get? k = some d → d.wasDeleted = false →
    (d.status.observed == some (Deployment.verdict d a.orgs.list)) = true

theorem Fulfilled.untouched (h : Fulfilled k a) (u : Untouched k a b) : Fulfilled k b := by
  intro e he live
  obtain ⟨d, hd, like⟩ := u.back he
  have right := h d hd (like.1.trans live)
  have observed : d.status.observed = e.status.observed := by simpa [hd, he] using u.observed
  rw [← observed]
  have same := u.verdict (u.keyed.1.1 k d hd) (u.keyed.2.1 k e he) like.2 (by simp [hd])
  cases hs : d.status.observed with
  | none =>
    rw [hs] at right
    cases right
  | some o =>
    rw [hs] at right
    exact BEq.trans (α := Observed) right same

end Stores
end Tenancy
