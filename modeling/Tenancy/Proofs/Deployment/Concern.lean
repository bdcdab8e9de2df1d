import Tenancy.Proofs.Deployment.Verdict
import Tenancy.Proofs.Fanout
import Tenancy.Proofs.Reconcile.Program
import Tenancy.Proofs.Store.Versions

/-! What a change of an organization means to deployments. The logic of a deployment sees nothing of
the organizations but those of its name, so a change that makes it come to something else is about
one of them. Main statement: such a change is not passed over, and it concerns the deployment. -/

namespace Tenancy

namespace Program

variable {Q : Type} {Answer : Q → Type} {α : Type} {p : Program Q Answer α} {t : Dialogue Answer}

theorem Leads.done_unique {a b : α} (h : Leads p t (done a)) (h' : Leads p t (done b)) : a = b := by
  induction p generalizing t with
  | done c =>
    cases h
    cases h'
    rfl
  | ask q next ih =>
    cases h with
    | told l =>
      cases h' with
      | told l' => exact ih _ l l'

end Program

namespace Deployment

variable {d : Deployment} {s t : Store OrganizationSpec}

def ruling (d : Deployment) (organizations : List Organization) : Except ReconcileError Unit :=
  match d.parent? organizations with
  | none => .error (.organizationNotFound d.organizationName)
  | some _ => .ok ()

theorem leads_ruling (d : Deployment) (organizations : List Organization) :
    Program.Leads d.apply [⟨.organizations, .ok organizations⟩]
      (.done (d.setObserved (d.verdict organizations), d.ruling organizations)) := by
  have told : Program.Leads d.apply [⟨.organizations, .ok organizations⟩] _ := .told (.here _)
  dsimp only [Program.bind] at told
  unfold verdict ruling
  cases parent : d.parent? organizations with
  | none =>
    rw [parent] at told
    exact told
  | some organization =>
    rw [parent] at told
    exact told

theorem ruling_congr (hs : s.Keyed) (ht : t.Keyed)
    (parents : ∀ l, l.name = d.key.organization → Option.Rel Resource.Like (s.get? l) (t.get? l)) :
    d.ruling s.list = d.ruling t.list := by
  have found : Option.Rel Resource.Like (d.parent? s.list) (d.parent? t.list) :=
    Store.find?_list_rel (f := fun l => l.name == d.key.organization) hs ht
      fun l hl => parents l (beq_iff_eq.1 hl)
  unfold ruling
  generalize d.parent? s.list = p at found
  generalize d.parent? t.list = q at found
  cases found with
  | none => rfl
  | some => rfl

/-- A write leaves the organizations of the deployment's name alike, unless its change is one that
is not passed over and concerns the deployment. -/
theorem parents_alike (keyed : s.Keyed) {w : Write OrganizationSpec}
    {c : Change OrganizationSpec} (made : (s.write w).change = some c) {ds : List Deployment}
    (listed : d ∈ ds) (missed : ¬(c.generationChanged = true ∧ d.key ∈ Fanout.keys ds c)) {l : Key}
    (name : l.name = d.key.organization) :
    Option.Rel Resource.Like (s.get? l) ((s.write w).store.get? l) := by
  refine Store.like_of_quiet keyed fun e he key => ?_
  obtain rfl : c = e := Option.some.inj (made.symm.trans he)
  have title : d.organizationName = Organization.title c.latest := by
    have named : c.latest.key.name = l.name := congrArg Key.name key
    exact (named.trans name).symm
  have concerned : d.key ∈ Fanout.keys ds c :=
    Fanout.mem_keys.2 ⟨c.latest, c.latest_mem_objects, d, listed, title, rfl⟩
  exact Bool.eq_false_iff.2 fun changed => missed ⟨changed, concerned⟩

/-- If a write of an organization makes the logic of a deployment fail or succeed where it did not,
or leave another observed state, then its change is not passed over and concerns the deployment.
States are told apart by `==`, as specifications are, so that a zero may change its sign unseen. -/
theorem concerned_of_differs (keyed : s.Keyed) {w : Write OrganizationSpec}
    {c : Change OrganizationSpec} (made : (s.write w).change = some c) {ds : Store DeploymentSpec}
    (listed : d ∈ ds.list) {x y : Hooked DeploymentSpec}
    (before : Program.Leads d.apply [⟨.organizations, .ok s.list⟩] (.done x))
    (after : Program.Leads d.apply [⟨.organizations, .ok (s.write w).store.list⟩] (.done y))
    (differs : x.2 ≠ y.2 ∨ (x.1.status.observed == y.1.status.observed) = false) :
    c.generationChanged = true ∧ d.key ∈ Fanout.keys ds.list c := by
  by_contra missed
  have alike (l : Key) (name : l.name = d.key.organization) :
      Option.Rel Resource.Like (s.get? l) ((s.write w).store.get? l) :=
    parents_alike keyed made listed missed name
  have keyed' : (s.write w).store.Keyed := (Store.turn_write keyed w).keyed keyed
  have ruling : x.2 = y.2 := by
    rw [before.done_unique (d.leads_ruling _), after.done_unique (d.leads_ruling _)]
    exact ruling_congr keyed keyed' alike
  have observed : (x.1.status.observed == y.1.status.observed) = true := by
    rw [before.done_unique (d.leads_ruling _), after.done_unique (d.leads_ruling _)]
    exact verdict_congr rfl (BEq.refl _) keyed keyed' alike
  rcases differs with differs | differs
  · exact differs ruling
  · rw [observed] at differs
    cases differs

def declaring : Organization :=
  { Resource.new (S := OrganizationSpec) "x" "a" with spec := ⟨none, [⟨"ipam", "pool"⟩], none⟩ }

def namesakes : Store OrganizationSpec :=
  (History.after [.create ⟨1⟩ declaring, .create ⟨2⟩ (.new "y" "a")]).store

theorem concerned_of_differs_namesake :
    ∃ (c : Change OrganizationSpec) (d : Deployment) (ds : Store DeploymentSpec),
      (namesakes.write (.delete .epoch ⟨"x", "a"⟩)).change = some c ∧ d ∈ ds.list ∧
      (d.verdict namesakes.list ==
        d.verdict (namesakes.write (.delete .epoch ⟨"x", "a"⟩)).store.list) = false ∧
      c.generationChanged = true ∧ d.key ∈ Fanout.keys ds.list c := by
  have made : (namesakes.write (.delete .epoch ⟨"x", "a"⟩)).change.isSome = true := by
    decide +kernel
  have listed : ((History.after [.create ⟨3⟩ (.new "z" "a.b")]).store.list.any
      fun d : Deployment => d.verdict namesakes.list !=
        d.verdict (namesakes.write (.delete .epoch ⟨"x", "a"⟩)).store.list) = true := by
    decide +kernel
  obtain ⟨c, made⟩ := Option.isSome_iff_exists.1 made
  obtain ⟨d, listed, differs⟩ := List.any_eq_true.1 listed
  rw [bne, Bool.not_eq_true'] at differs
  have keyed : namesakes.Keyed := History.keyed_after _
  have concerned := concerned_of_differs keyed made listed (leads_ruling d _) (leads_ruling d _)
    (.inr differs)
  exact ⟨c, d, _, made, listed, differs, concerned⟩

end Deployment
end Tenancy
