import Tenancy.Control.Lookup
import Tenancy.Proofs.Control.Moves
import Tenancy.Proofs.Deployment.Effective
import Tenancy.Proofs.Reconcile.Settled
import Tenancy.Proofs.Segments

/-! Looking up what was worked out. A register name finds the object that it was built from, and
what a pass has told in the status of that object is served, registers only if none of the critical
kinds is missing. -/

namespace Tenancy

namespace Registry

variable {rs served : Registers} {ns name : String}

/-- The answer where these registers are effective: all of them, or the first critical kind that is
missing. -/
structure Serves (rs : Registers) (answer : Except ReconcileError Registers) : Prop where
  complete : "ipam" ∈ rs → "as" ∈ rs → answer = .ok rs
  lacksIpam : "ipam" ∉ rs → answer = .error (.missingRegister "ipam")
  lacksAs : "ipam" ∈ rs → "as" ∉ rs → answer = .error (.missingRegister "as")

theorem serve_eq (rs : Registers) : serve rs =
    if "ipam" ∈ rs then if "as" ∈ rs then .ok rs else .error (.missingRegister "as")
    else .error (.missingRegister "ipam") := by
  simp only [serve, RegisterKind.critical, List.find?, RegisterKind.text,
    Std.ExtTreeMap.mem_iff_contains]
  cases rs.contains "ipam" <;> cases rs.contains "as" <;> rfl

theorem serves (rs : Registers) : Serves rs (serve rs) := by
  rw [serve_eq]
  constructor <;> intros <;> simp [*]

theorem critical_of_serve (h : serve rs = .ok served) : "ipam" ∈ served ∧ "as" ∈ served := by
  rw [serve_eq] at h
  split at h
  · split at h
    · cases h
      constructor <;> assumption
    · cases h
  · cases h

end Registry

/-! ### What passes have told -/

section

variable {S : Type} {x y : Resource S}

theorem Resource.state_of_up {rs : Registers} {st : Option Strategy}
    (up : x.status.observed = some (.up rs st)) : x.stateRegisters = rs ∧ x.stateStrategy = st := by
  unfold stateRegisters stateStrategy observed
  rw [up]
  exact ⟨rs.ofList_bindings, rfl⟩

theorem Resource.declared_congr [ResourceKind S] (spec : x.spec = y.spec) :
    x.registers = y.registers ∧ x.strategy = y.strategy := by
  unfold registers strategy
  rw [spec]
  exact ⟨rfl, rfl⟩

end

theorem Organization.up_of_settled {wait : Span} {key : Key} {ws vs : List (Write OrganizationSpec)}
    {es : List (Event OrganizationSpec)} {x : Organization} {s : Store OrganizationSpec}
    (settled : Settled logic wait key ws es vs x s) :
    ∃ y, s.get? key = some y ∧ y.spec = x.spec ∧
      y.status.observed = some (.up x.registers x.strategy) := by
  obtain ⟨o, o', u, y, -, spec, applied, -, stored, spec_y, observed⟩ := settled.stored steady
  obtain ⟨registers, strategy⟩ := Resource.declared_congr spec
  cases applied
  exact ⟨y, stored, spec_y, by rw [observed, ← registers, ← strategy]; rfl⟩

namespace Deployment

theorem effective_of_applied {s : Store OrganizationSpec} {d d' : Deployment}
    {u : Pass.Talk DeploymentSpec} (l : Program.Leads (Pass.inquire d.apply) u (.done (d', .ok ())))
    (listed : ∀ a, ⟨.logic .organizations, a⟩ ∈ u → a = .ok s.list) :
    ∃ p, d.Parent s p ∧ d'.status.observed = some (d.effective p) := by
  cases l with
  | @told _ _ answer _ _ l =>
    obtain rfl := listed answer (by simp)
    dsimp only [Pass.inquire, Program.bind, Program.embed] at l
    cases found : d.parent? s.list with
    | none =>
      rw [found] at l
      cases l
    | some p =>
      rw [found] at l
      cases l
      exact ⟨p, parent?_eq_some.1 found, rfl⟩

theorem up_of_settled {wait : Span} {key : Key} {ws vs : List (Write DeploymentSpec)}
    {es : List (Event DeploymentSpec)} {x : Deployment} {s : Store DeploymentSpec}
    {orgs : Store OrganizationSpec} (settled : Settled logic wait key ws es vs x s)
    (enabled : x.spec.adminState = .enable)
    (listed : ∀ a, .told (.logic .organizations) a ∈ es → a = .ok orgs.list) :
    ∃ p y, orgs.First (Organization.title · = key.organization) p ∧ s.get? key = some y ∧
      y.spec = x.spec ∧ y.status.observed =
        some (.up (p.registers.inherit x.registers) (Strategy.inherit p.strategy x.strategy)) := by
  obtain ⟨d, d', u, y, hk, spec, applied, asked, stored, spec_y, observed⟩ := settled.stored steady
  obtain ⟨p, parent, left⟩ := effective_of_applied applied fun a h => listed a (asked _ _ h)
  obtain ⟨registers, strategy⟩ := Resource.declared_congr spec
  have up : effective d p =
      .up (p.registers.inherit d.registers) (Strategy.inherit p.strategy d.strategy) :=
    if_neg (by simp [spec, enabled])
  refine ⟨p, y, hk ▸ parent, stored, spec_y, ?_⟩
  rw [observed, left, up, registers, strategy]

end Deployment

namespace Cluster

open Registry

/-! ### Lookups -/

section

variable {s : Cluster} {ns name : String} {α : Type}
  {read : {S : Type} → [ResourceKind S] → Resource S → Except ReconcileError α}

theorem fetch_get {S : Type} [Hosted S] (plan : (Hosted.side (S := S) s).store.plan = [])
    (key : Key) : (lookUp.fetch read (s.get S key)).1 =
      ((s.store S).get? key).elim (.error (.ofStore (Store.missing S key))) fun o => read o := by
  have plain := plain_call plan s.clock .get (some key) fun st => ⟨st.get key, st, none⟩
  have got : (s.get S key).1 = (s.store S).get key := congrArg (·.answer) plain
  generalize s.get S key = r at got ⊢
  obtain ⟨answer, t⟩ := r
  subst got
  unfold Store.get
  cases (s.store S).get? key <;> rfl

theorem lookUp_organization (calm : s.Calm) (dots : name.toList.count '.' = 0) :
    (s.lookUp ns name read).1 = ((s.store OrganizationSpec).get? ⟨ns, name⟩).elim
      (.error (.ofStore (Store.missing OrganizationSpec ⟨ns, name⟩))) fun o => read o := by
  unfold lookUp
  rw [target_organization ns dots]
  exact fetch_get calm.orgs _

theorem lookUp_deployment (calm : s.Calm) (dots : name.toList.count '.' = 1) :
    (s.lookUp ns name read).1 = ((s.store DeploymentSpec).get? ⟨ns, name⟩).elim
      (.error (.ofStore (Store.missing DeploymentSpec ⟨ns, name⟩))) fun o => read o := by
  unfold lookUp
  rw [target_deployment ns dots]
  exact fetch_get calm.deps _

theorem lookUp_invalid (dots : 2 ≤ name.toList.count '.') :
    (s.lookUp ns name read).1 = .error (.invalidRegisterName name) := by
  unfold lookUp
  rw [target_invalid ns dots]

theorem lookUp_missing (calm : s.Calm)
    (absent : name.toList.count '.' = 0 ∧ (s.store OrganizationSpec).get? ⟨ns, name⟩ = none ∨
      name.toList.count '.' = 1 ∧ (s.store DeploymentSpec).get? ⟨ns, name⟩ = none) :
    ∃ e, e.isNotFound = true ∧ ∀ (α : Type)
      (read : {S : Type} → [ResourceKind S] → Resource S → Except ReconcileError α),
      (s.lookUp ns name read).1 = .error e := by
  rcases absent with ⟨dots, absent⟩ | ⟨dots, absent⟩
  · refine ⟨.ofStore (Store.missing OrganizationSpec ⟨ns, name⟩), rfl, fun _ _ => ?_⟩
    rw [lookUp_organization calm dots, absent, Option.elim_none]
  · refine ⟨.ofStore (Store.missing DeploymentSpec ⟨ns, name⟩), rfl, fun _ _ => ?_⟩
    rw [lookUp_deployment calm dots, absent, Option.elim_none]

theorem read_of_lookUp {a : α} (h : (s.lookUp ns name read).1 = .ok a) :
    (∃ o : Organization, read o = .ok a) ∨ ∃ d : Deployment, read d = .ok a := by
  have fetched {S : Type} [ResourceKind S] {r : Except StoreError (Resource S) × Cluster}
      (h : (lookUp.fetch read r).1 = .ok a) : ∃ o : Resource S, read o = .ok a := by
    obtain ⟨e | o, t⟩ := r
    · cases h
    · exact ⟨o, h⟩
  unfold lookUp at h
  split at h
  · cases h
  · exact .inl (fetched h)
  · exact .inr (fetched h)

end

structure Prudent (s : Cluster) (ns name : String) : Prop where
  critical (rs : Registers) : (s.effectiveRegisters ns name).1 = .ok rs → "ipam" ∈ rs ∧ "as" ∈ rs
  missing : s.Calm →
    (name.toList.count '.' = 0 ∧ (s.store OrganizationSpec).get? ⟨ns, name⟩ = none ∨
      name.toList.count '.' = 1 ∧ (s.store DeploymentSpec).get? ⟨ns, name⟩ = none) →
    ∃ e, e.isNotFound = true ∧ (s.effectiveRegisters ns name).1 = .error e ∧
      (s.effectiveStrategy ns name).1 = .error e
  invalid : 2 ≤ name.toList.count '.' →
    (s.effectiveRegisters ns name).1 = .error (.invalidRegisterName name) ∧
      (s.effectiveStrategy ns name).1 = .error (.invalidRegisterName name)

theorem prudent (s : Cluster) (ns name : String) : s.Prudent ns name where
  critical rs h := by
    rcases read_of_lookUp h with ⟨o, served⟩ | ⟨d, served⟩
    · exact critical_of_serve served
    · exact critical_of_serve served
  missing calm absent := by
    obtain ⟨e, gone, answer⟩ := lookUp_missing calm absent
    exact ⟨e, gone, answer _ _, answer _ _⟩
  invalid dots := ⟨lookUp_invalid dots, lookUp_invalid dots⟩

/-! ### Answers from what was told -/

structure Served (s : Cluster) (ns name : String) (rs : Registers) (st : Option Strategy) :
    Prop where
  registers : Serves rs (s.effectiveRegisters ns name).1
  strategy : (s.effectiveStrategy ns name).1 = .ok st

theorem served_of_up {s : Cluster} {ns name : String} {rs : Registers} {st : Option Strategy}
    {S : Type} [ResourceKind S] {o : Resource S} (answer : ∀ (α : Type)
      (read : {S : Type} → [ResourceKind S] → Resource S → Except ReconcileError α),
      (s.lookUp ns name read).1 = read o)
    (up : o.status.observed = some (.up rs st)) : s.Served ns name rs st := by
  obtain ⟨registers, strategy⟩ := Resource.state_of_up up
  constructor
  · rw [effectiveRegisters, answer, registers]
    exact serves rs
  · rw [effectiveStrategy, answer, strategy]

/-- Lookups serve what reconciling has worked out. After a pass over an unmarked enabled deployment
that ended well these are its own registers and strategy with those of its parent at the time of the
pass, and after one over an unmarked organization what that declares, as long as the object is not
written again. -/
theorem registry_serves (s : Cluster) (wait : Span) :
    (∀ (n o d : String) (orgs : Store OrganizationSpec) (ws vs : List (Write DeploymentSpec))
      (es : List (Event DeploymentSpec)) (x : Deployment),
      s.Calm → '.' ∉ o.toList → '.' ∉ d.toList → d ≠ "" →
      Settled Deployment.logic wait ⟨n, registerName o d⟩ ws es vs x (s.store DeploymentSpec) →
      x.spec.adminState = .enable →
      (∀ a, .told (.logic .organizations) a ∈ es → a = .ok orgs.list) →
      ∃ p y, orgs.First (Organization.title · = o) p ∧
        (s.store DeploymentSpec).get? ⟨n, registerName o d⟩ = some y ∧ y.spec = x.spec ∧
        s.Served n (registerName o d) (p.registers.inherit x.registers)
          (Strategy.inherit p.strategy x.strategy)) ∧
    (∀ (n o : String) (ws vs : List (Write OrganizationSpec)) (es : List (Event OrganizationSpec))
      (x : Organization), s.Calm → '.' ∉ o.toList →
      Settled Organization.logic wait ⟨n, o⟩ ws es vs x (s.store OrganizationSpec) →
      ∃ y, (s.store OrganizationSpec).get? ⟨n, o⟩ = some y ∧ y.spec = x.spec ∧
        s.Served n (registerName o "") x.registers x.strategy) ∧
    ∀ ns name : String, s.Prudent ns name := by
  refine ⟨?deployment, ?organization, s.prudent⟩
  case deployment =>
    intro n o d orgs ws vs es x calm plain plain' named settled enabled listed
    obtain ⟨p, y, parent, stored, spec, up⟩ := Deployment.up_of_settled settled enabled listed
    have segments := segments_registerName plain plain' named
    have organization : Key.organization ⟨n, registerName o d⟩ = o := by
      rw [Key.organization, splitDeploymentName, segments]
    have dots : (registerName o d).toList.count '.' = 1 := by
      have length := length_segments (registerName o d)
      rw [segments] at length
      exact (Nat.succ.inj length).symm
    have served := served_of_up
      (fun _ _ => by rw [lookUp_deployment calm dots, stored, Option.elim_some]) up
    exact ⟨p, y, organization ▸ parent, stored, spec, served⟩
  case organization =>
    intro n o ws vs es x calm plain settled
    obtain ⟨y, stored, spec, up⟩ := Organization.up_of_settled settled
    have name : registerName o "" = o := if_pos rfl
    have dots : o.toList.count '.' = 0 := List.count_eq_zero.2 plain
    rw [name]
    have served := served_of_up
      (fun _ _ => by rw [lookUp_organization calm dots, stored, Option.elim_some]) up
    exact ⟨y, stored, spec, served⟩

def child : Deployment :=
  { (Resource.new (S := DeploymentSpec) "x" "a.b").withFinalizer "deployment.org.nddr.yndd.io" with
    spec := ⟨.enable, none, none, none, [⟨"as", "numbers"⟩], none⟩ }

def storedChild : Deployment := Store.empty.draw (child.born ⟨1⟩)

def parents : Store OrganizationSpec := (History.after [.create ⟨2⟩ Deployment.declaring]).store

def toldChild : Deployment :=
  Pass.succeeded (storedChild.withObserved.setObserved (storedChild.verdict parents.list)) .epoch

def afterChild : Cluster :=
  let s := start .default .epoch ⟨0⟩
  let deps := (History.after [.create ⟨1⟩ child, .updateStatus toldChild]).store
  { s with deps := { s.deps with store := ⟨deps, []⟩ } }

theorem settled_child : ∃ es, Settled Deployment.logic ⟨0⟩ ⟨"x", "a.b"⟩
    [.create ⟨1⟩ child] es [] storedChild (afterChild.store DeploymentSpec) ∧
    ∀ a, .told (.logic .organizations) a ∈ es → a = .ok parents.list := by
  refine ⟨[.told (.get ⟨"x", "a.b"⟩) (.ok storedChild),
    .told (.logic .organizations) (.ok parents.list), .told .clock .epoch,
    .told (.updateStatus toldChild)
      (.ok (Store.draw ⟨∅, 1⟩ (storedChild.withStatus toldChild.status))),
    .told (.logic (.nextDelay "x.a.b")) ⟨0⟩], ?_, by simp⟩
  refine ⟨⟨some ⟨0⟩, ?asks, ?answered, ?room⟩, by simp, rfl, ?untouched, rfl⟩
  case asks => exact .told (.told (.told (.told (.told (.here _)))))
  case answered =>
    intro before q answer later h
    rcases before with _ | ⟨_, _ | ⟨_, _ | ⟨_, _ | ⟨_, _ | ⟨_, before⟩⟩⟩⟩⟩
    · cases h
      exact ⟨_, .get ⟨"x", "a.b"⟩⟩
    · cases h
      exact ⟨_, .logic _ _⟩
    · cases h
      exact ⟨_, .clock _⟩
    · cases h
      exact ⟨_, .updateStatus _⟩
    · cases h
      exact ⟨_, .logic _ _⟩
    · simp at h
  case room => exact (History.log_length_le _).trans_lt (by decide)
  case untouched =>
    intro before y a after h
    have last : after.filterMap Event.write? = [] := by
      rcases before with _ | ⟨_, _ | ⟨_, _ | ⟨_, _ | ⟨_, _ | ⟨_, before⟩⟩⟩⟩⟩
      iterate 3 cases h
      · cases h
        rfl
      · cases h
      · simp at h
    intro us w rest hw
    rw [last] at hw
    simp at hw

theorem registry_serves_child : ∃ p y,
    parents.First (Organization.title · = "a") p ∧
      (afterChild.store DeploymentSpec).get? ⟨"x", registerName "a" "b"⟩ = some y ∧
      y.spec = storedChild.spec ∧
      afterChild.Served "x" (registerName "a" "b") (p.registers.inherit storedChild.registers)
        (Strategy.inherit p.strategy storedChild.strategy) := by
  obtain ⟨es, settled, listed⟩ := settled_child
  have name : registerName "a" "b" = "a.b" := by decide
  rw [← name] at settled
  exact (registry_serves afterChild ⟨0⟩).1 "x" "a" "b" parents _ [] es storedChild ⟨rfl, rfl⟩
    (by decide) (by decide) (by decide) settled rfl listed

end Cluster
end Tenancy
