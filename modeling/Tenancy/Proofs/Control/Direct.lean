import Tenancy.Control.Direct
import Tenancy.Proofs.Control.Moves
import Tenancy.Proofs.Reconcile.Deadline
import Tenancy.Proofs.Reconcile.Echo
import Tenancy.Reconcile.Script

/-! Passes that are run directly. In a cluster where nothing else goes on, what such a pass is told
comes from the store of its kind alone; if it runs out of time its object does not say so. -/

namespace Tenancy

theorem Script.steady {S : Type} (c : Script) : (c.logic : Logic S).Steady := by
  refine ⟨fun o t o' r l => ?_, fun o t o' r l => ?_⟩
  · cases l with | told l =>
    cases l with | told l =>
    cases l
    split
    · exact .withObserved o
    · exact .rfl
  · cases l with | told l =>
    cases l with | told l =>
    cases l
    cases c.status <;> cases c.reason <;> exact .rfl

namespace Cluster

/-- Nothing goes on by itself, and nothing is disturbed. -/
structure Vacant (s : Cluster) : Prop extends Calm s where
  orgsLoop : s.orgs.loop = none
  depsLoop : s.deps.loop = none
  strays : s.deps.strays = []

namespace Vacant

variable {s : Cluster} (vacant : s.Vacant)
include vacant

theorem ofLoop_eq {α : Type} (default : α) (f : {S : Type} → Loop S → α) (k : ObjectKind) :
    s.ofLoop default f k = default := by
  have orgs : s.loop? OrganizationSpec = none := vacant.orgsLoop
  have deps : s.loop? DeploymentSpec = none := vacant.depsLoop
  cases k with
  | organization => simp [ofLoop, ObjectKind.on, orgs]
  | deployment => simp [ofLoop, ObjectKind.on, deps]

theorem pending_eq : s.pending = [] := by
  simp [pending, vacant.ofLoop_eq, vacant.strays, Timer.ripe]

theorem settle_eq : s.settle = s := by
  have rests (n : Nat) : turns n [] s = s := by
    cases n with
    | zero => rfl
    | succ n => simp [turns, join, vacant.pending_eq]
  exact rests patience

theorem reach_eq (target : Nat) : s.reach target = { s with now := target } := by
  have idle : s.nextDue? = none := by simp [nextDue?, vacant.ofLoop_eq]
  have jumped (n : Nat) : jumps target n s = { s with now := target } := by
    cases n with
    | zero => rfl
    | succ n => simp [jumps, idle]
  unfold reach
  rw [vacant.settle_eq]
  exact jumped _

end Vacant

/-! ### Questions -/

structure Secluded (S : Type) [Hosted S] : Prop where
  plan : ∀ s : Cluster, s.Calm → (Hosted.side (S := S) s).store.plan = []
  announce : ∀ (s : Cluster) (store : Store S) (x : Option (Change S)), s.Vacant →
    ((s.setStore ⟨store, []⟩).publishAll x.toList).Vacant ∧
    ((s.setStore ⟨store, []⟩).publishAll x.toList).store S = store
  paced : ∀ (s : Cluster) (f : Pacer → Pacer), s.Vacant →
    (s.paced S false f).Vacant ∧ (s.paced S false f).store S = s.store S
  lists : ∀ s : Cluster, s.Vacant →
    (s.list OrganizationSpec).2.Vacant ∧ (s.list OrganizationSpec).2.store S = s.store S
  elapse : ∀ (s : Cluster) (now : Nat), Cluster.store S { s with now } = s.store S

theorem Vacant.lists {s : Cluster} (vacant : s.Vacant) : (s.list OrganizationSpec).2.Vacant ∧
    (s.list OrganizationSpec).2.orgs.store.store = s.orgs.store.store ∧
    (s.list OrganizationSpec).2.deps = s.deps := by
  have plain : s.Plain (S := OrganizationSpec) (·.list s.clock)
      ⟨.ok (s.store OrganizationSpec).list, s.store OrganizationSpec, none⟩ :=
    plain_call vacant.orgs s.clock .list none fun st => ⟨.ok st.list, st, none⟩
  unfold Cluster.list Cluster.call
  rw [plain]
  exact ⟨⟨⟨vacant.deps, rfl⟩, vacant.orgsLoop, vacant.depsLoop, vacant.strays⟩, rfl, rfl⟩

theorem secluded_orgs : Secluded OrganizationSpec := by
  refine ⟨fun s h => h.orgs, fun s new x h => ?_, fun s f h => ?_, fun s h => ?_, fun _ _ => rfl⟩
  · obtain ⟨⟨_, _, _, loop, _⟩, ⟨_, _, _, loop', strays⟩, _⟩ := s
    obtain ⟨⟨_, _⟩, rfl, rfl, rfl⟩ := h
    cases x <;> exact ⟨⟨⟨‹_›, rfl⟩, rfl, rfl, rfl⟩, rfl⟩
  · exact ⟨⟨⟨h.deps, h.orgs⟩, h.orgsLoop, h.depsLoop, h.strays⟩, rfl⟩
  · obtain ⟨vacant, same, -⟩ := h.lists
    exact ⟨vacant, same⟩

theorem secluded_deps : Secluded DeploymentSpec := by
  refine ⟨fun s h => h.deps, fun s new x h => ?_, fun s f h => ?_, fun s h => ?_, fun _ _ => rfl⟩
  · obtain ⟨⟨_, _, _, loop, _⟩, ⟨_, _, _, loop', strays⟩, _⟩ := s
    obtain ⟨⟨_, _⟩, rfl, rfl, rfl⟩ := h
    cases x <;> exact ⟨⟨⟨rfl, ‹_›⟩, rfl, rfl, rfl⟩, rfl⟩
  · exact ⟨⟨⟨h.deps, h.orgs⟩, h.orgsLoop, h.depsLoop, h.strays⟩, rfl⟩
  · obtain ⟨vacant, -, same⟩ := h.lists
    exact ⟨vacant, congrArg (·.store.store) same⟩

section

variable {S : Type} [Hosted S] {s : Cluster} (secluded : Secluded S) (vacant : s.Vacant)
include secluded vacant

theorem Secluded.call {α : Type} {run : Disturbed S → Called S α} {w : Written S α}
    (plain : s.Plain run w) :
    (s.call run).1 = w.answer ∧ (s.call run).2.Vacant ∧ (s.call run).2.store S = w.store := by
  unfold Cluster.call
  rw [plain]
  exact ⟨rfl, secluded.announce s w.store w.change vacant⟩

theorem Secluded.answer {h : History S} (seen : h.store = s.store S) (q : Request S) :
    (s.answer false q).2.Vacant ∧ ∃ h', h'.store = (s.answer false q).2.store S ∧
      Site.Answered h q (s.answer false q).1 h' := by
  have plan := secluded.plan s vacant.toCalm
  have still {t : Cluster} (same : t.Vacant ∧ t.store S = s.store S) {a : Ask} (r : a.Answer) :
      t.Vacant ∧ ∃ h', h'.store = t.store S ∧ Site.Answered h (.logic a) r h' :=
    ⟨same.1, h, seen.trans same.2.symm, .logic a r⟩
  cases q with
  | get key =>
    obtain ⟨answer, vacant', same⟩ := secluded.call vacant
      (plain_call plan s.clock .get (some key) fun st => ⟨st.get key, st, none⟩)
    have answer : (s.get S key).1 = h.store.get key := answer.trans (by rw [seen])
    exact ⟨vacant', h, seen.trans same.symm, answer ▸ .get key⟩
  | update o =>
    obtain ⟨answer, vacant', same⟩ := secluded.call vacant
      (plain_call plan s.clock .update (some o.key) (·.update o))
    have answer : (s.update o).1 = (h.store.update o).answer := answer.trans (by rw [seen])
    have written : (h.write (.update o)).store = (h.store.update o).store := rfl
    rw [seen] at written
    exact ⟨vacant', _, written.trans same.symm, answer ▸ .update o⟩
  | updateStatus o =>
    obtain ⟨answer, vacant', same⟩ := secluded.call vacant
      (plain_call plan s.clock .updateStatus (some o.key) (·.updateStatus o))
    have answer : (s.updateStatus o).1 = (h.store.updateStatus o).answer :=
      answer.trans (by rw [seen])
    have written : (h.write (.updateStatus o)).store = (h.store.updateStatus o).store := rfl
    rw [seen] at written
    exact ⟨vacant', _, written.trans same.symm, answer ▸ .updateStatus o⟩
  | clock => exact ⟨vacant, h, seen, .clock s.clock⟩
  | logic a =>
    cases a with
    | organizations => exact still (secluded.lists s vacant) _
    | nextDelay identity =>
      exact still (secluded.paced s (fun p => (p.nextDelay identity).2) vacant) _
    | forget identity => exact still (secluded.paced s (·.forget identity) vacant) _
    | sleep | entered => exact still ⟨vacant, rfl⟩ _

end

/-! ### Passes -/

/-- What a pass was told from a history on, until it was done or given up. -/
def Told {S α : Type} [Hosted S] (key : Key) (h : History S) (p : Pass S α)
    (x : Option α × Tenancy.Run) : Prop :=
  ∃ t h', h'.store = x.2.cluster.store S ∧ Pass.Alone key h t h' ∧
    match x.1 with
    | some a => Program.Leads p t (.done a)
    | none => ∃ q next, Program.Leads p t (.ask q next)

section

variable {S : Type} [Hosted S] (secluded : Secluded S)
include secluded

theorem Secluded.suspend {r r' : Tenancy.Run} {deadline : Nat} {d : Span} {woken : Bool}
    {h : History S} (suspended : r.suspend deadline d = (woken, r')) (vacant : r.cluster.Vacant)
    (seen : h.store = r.cluster.store S) :
    r'.cluster.Vacant ∧ h.store = r'.cluster.store S := by
  have reached (t : Nat) : (r.cluster.reach t).Vacant ∧
      h.store = (r.cluster.reach t).store S := by
    rw [vacant.reach_eq, secluded.elapse]
    exact ⟨⟨⟨vacant.deps, vacant.orgs⟩, vacant.orgsLoop, vacant.depsLoop, vacant.strays⟩, seen⟩
  unfold Tenancy.Run.suspend at suspended
  dsimp only at suspended
  split at suspended
  · cases suspended
    exact ⟨vacant, seen⟩
  · split at suspended <;> (cases suspended; exact reached _)

omit secluded in
theorem Told.cons {α : Type} {key : Key} {h h₁ : History S} {q : Request S} {a : q.Answer}
    {next : q.Answer → Pass S α} {x : Option α × Tenancy.Run} (answered : Site.Answered h q a h₁)
    (told : Told key h₁ (next a) x) : Told key h (.ask q next) x := by
  obtain ⟨t, h₂, seen, alone, ended⟩ := told
  refine ⟨⟨q, a⟩ :: t, h₂, seen, .told answered alone, ?_⟩
  obtain ⟨_ | b, r⟩ := x
  · obtain ⟨q', next', leads⟩ := ended
    exact ⟨q', next', .told leads⟩
  · exact .told ended

theorem Secluded.told {α : Type} (key : Key) (deadline : Nat) (p : Pass S α) {r : Tenancy.Run}
    (vacant : r.cluster.Vacant) {h : History S} (seen : h.store = r.cluster.store S) :
    Told key h p (perform deadline p r) := by
  have given_up {r : Tenancy.Run} {h : History S} {q : Request S} {next : q.Answer → Pass S α}
      (seen : h.store = r.cluster.store S) : Told key h (.ask q next) (none, r) :=
    ⟨[], h, seen, .still h, q, next, .here _⟩
  fun_induction perform deadline p r generalizing h with
  | case1 r a => exact ⟨[], h, seen, .still h, .here _⟩
  | case2 d next r none ih => exact .cons (.logic _ ()) (ih vacant seen)
  | case3 d next r some r' woken ih =>
    obtain ⟨vacant, seen⟩ := secluded.suspend woken vacant seen
    exact .cons (.logic _ ()) (ih vacant seen)
  | case4 d next r some r' late => exact given_up (secluded.suspend late vacant seen).2
  | case5 hook next r ih => exact .cons (.logic _ ()) (ih vacant seen)
  | case6 identity next r a s paced r' woken ih =>
    obtain ⟨vacant, h', seen, answered⟩ :=
      secluded.answer vacant seen (.logic (.nextDelay identity))
    rw [paced] at vacant seen answered
    obtain ⟨vacant, seen⟩ := secluded.suspend (r := ⟨s, r.hooks⟩) woken vacant seen
    exact .cons answered (ih vacant seen)
  | case7 identity next r a s paced r' late =>
    obtain ⟨vacant, h', seen, answered⟩ :=
      secluded.answer vacant seen (.logic (.nextDelay identity))
    rw [paced] at vacant seen answered
    obtain ⟨-, seen⟩ := secluded.suspend (r := ⟨s, r.hooks⟩) late vacant seen
    -- the pass does not get to know the answer
    cases answered
    exact given_up seen
  | case8 q next r _ _ _ a s told ih =>
    obtain ⟨vacant, h', seen, answered⟩ := secluded.answer vacant seen q
    rw [told] at vacant seen answered
    exact .cons answered (ih vacant seen)

end

theorem Secluded.reconcile {S : Type} [Hosted S] (secluded : Secluded S) {s : Cluster}
    (vacant : s.Vacant) {logic : Logic S} (steady : logic.Steady) {key : Key} {o : Resource S}
    {limit : Span} (keyed : (s.store S).Keyed) (stored : (s.store S).get? key = some o)
    (unmarked : o.wasDeleted = false)
    (timeout : (s.reconcile logic key).1 = .error (.timeout limit)) :
    ∃ d, ((s.reconcile logic key).2.cluster.store S).get? key = some d ∧
      (limit = s.settings.reconcileTimeout ∧ Pass.Untold o d ∨ d.TellsOf (.timeout limit)) := by
  obtain ⟨t, h', seen, alone, ended⟩ := secluded.told key
    (s.now + s.timing.wait s.now s.settings.reconcileTimeout)
    (Pass.run logic .inStore s.settings.shortWait key) (r := ⟨s, []⟩) vacant
    (h := ⟨s.store S, []⟩) rfl
  unfold Cluster.reconcile at timeout ⊢
  dsimp only at timeout ⊢
  rw [← seen]
  split at ended
  · rename_i r done
    rw [done, Option.getD_some] at timeout
    rw [timeout] at ended
    obtain ⟨d, stored', tells⟩ := alone.timed_out keyed stored unmarked steady ended
    exact ⟨d, stored', .inr tells⟩
  · rename_i cut
    rw [cut, Option.getD_none] at timeout
    cases timeout
    obtain ⟨q, next, leads⟩ := ended
    obtain ⟨d, stored', untold⟩ := alone.given_up keyed stored unmarked leads
    exact ⟨d, stored', .inl ⟨rfl, untold⟩⟩

/-- A pass that is given up while nobody else changes its unmarked object leaves the failure untold;
one that ends with a timeout of a hook does not. A reconcile that ends with a timeout is one of
these, so the object tells of it only if a hook did, or if it told of the same before. -/
theorem timeouts_untold {S : Type} [Hosted S] (secluded : Secluded S) {logic : Logic S} {key : Key}
    {o : Resource S} (unmarked : o.wasDeleted = false) :
    (∀ wait h h' t, h.store.Keyed → h.store.get? key = some o → Pass.Alone key h t h' →
      (∀ guard q next, Program.Leads (Pass.run logic guard wait key) t (.ask q next) →
        ∃ d, h'.store.get? key = some d ∧ Pass.Untold o d) ∧
      ∀ limit, logic.Steady →
        Program.Leads (Pass.run logic .inStore wait key) t (.done (.error (.timeout limit))) →
        ∃ d, h'.store.get? key = some d ∧ d.TellsOf (.timeout limit)) ∧
    ∀ (s : Cluster) limit, s.Vacant → (s.store S).Keyed → (s.store S).get? key = some o →
      logic.Steady → (s.reconcile logic key).1 = .error (.timeout limit) →
      ∃ d, ((s.reconcile logic key).2.cluster.store S).get? key = some d ∧
        (limit = s.settings.reconcileTimeout ∧ Pass.Untold o d ∨ d.TellsOf (.timeout limit)) := by
  refine ⟨fun wait h h' t keyed stored alone => ⟨?_, ?_⟩, ?_⟩
  · exact fun guard q next leads => alone.given_up keyed stored unmarked leads
  · exact fun limit steady leads => alone.timed_out keyed stored unmarked steady leads
  · intro s limit vacant keyed stored steady timeout
    exact secluded.reconcile vacant steady keyed stored unmarked timeout

def slow : Script :=
  { Script.default with stall := fun hook => if hook = .apply then .ofSeconds 2 else ⟨0⟩ }

def hapless : Script := { Script.default with applyError := some (.timeout ⟨7⟩) }

def impatient : Cluster :=
  let s := start { Settings.default with reconcileTimeout := .ofSeconds 1 } .epoch ⟨0⟩
  (s.create (.new "a" "b" : Organization)).2

def overdue : Outcome × Tenancy.Run :=
  impatient.reconcile (S := OrganizationSpec) slow.logic ⟨"a", "b"⟩

theorem silent_overdue : ∃ d, (overdue.2.cluster.store OrganizationSpec).get? ⟨"a", "b"⟩ = some d ∧
    ∀ e, ¬d.TellsOf e := by
  have silent : ((overdue.2.cluster.store OrganizationSpec).get? ⟨"a", "b"⟩).map
      (·.status.conditions) = some [] := by
    decide +kernel
  obtain ⟨d, stored, none⟩ := Option.map_eq_some_iff.1 silent
  refine ⟨d, stored, ?_⟩
  rintro e ⟨now, -, notReady⟩
  unfold Resource.Says Resource.condition at notReady
  rw [none] at notReady
  simp [Condition.get, Condition.unset, Condition.agrees, Condition.notReady] at notReady

theorem keyed_impatient : (impatient.store OrganizationSpec).Keyed :=
  (Store.turn_write Store.keyed_empty (.create ⟨1⟩ (.new "a" "b"))).keyed Store.keyed_empty

theorem timeouts_untold_impatient :
    (∃ q next d, Program.Leads (Pass.run slow.logic .inStore ⟨0⟩ ⟨"a", "b"⟩)
        [⟨.get ⟨"a", "b"⟩, .ok Pass.newcomer⟩] (.ask q next) ∧
      (impatient.store OrganizationSpec).get? ⟨"a", "b"⟩ = some d ∧
      Pass.Untold Pass.newcomer d) ∧
    (∃ d, overdue.1 = .error (.timeout (.ofSeconds 1)) ∧
      (overdue.2.cluster.store OrganizationSpec).get? ⟨"a", "b"⟩ = some d ∧
      Pass.Untold Pass.newcomer d) ∧
    ∃ d, (impatient.reconcile (S := OrganizationSpec) hapless.logic ⟨"a", "b"⟩).1 =
        .error (.timeout ⟨7⟩) ∧
      ((impatient.reconcile (S := OrganizationSpec) hapless.logic ⟨"a", "b"⟩).2.cluster.store
        OrganizationSpec).get? ⟨"a", "b"⟩ = some d ∧ d.TellsOf (.timeout ⟨7⟩) := by
  have untold (c : Script) :=
    @timeouts_untold OrganizationSpec _ secluded_orgs c.logic ⟨"a", "b"⟩ Pass.newcomer rfl
  have vacant : impatient.Vacant := ⟨⟨rfl, rfl⟩, rfl, rfl, rfl⟩
  have direct (c : Script) (limit : Span) :=
    (untold c).2 impatient limit vacant keyed_impatient rfl c.steady
  refine ⟨?_, ?_, ?_⟩
  · have leads : Program.Leads (Pass.run slow.logic .inStore ⟨0⟩ ⟨"a", "b"⟩)
        [⟨.get ⟨"a", "b"⟩, .ok Pass.newcomer⟩] _ := .told (.here _)
    have alone : Pass.Alone ⟨"a", "b"⟩ ⟨impatient.store OrganizationSpec, []⟩
        [⟨.get ⟨"a", "b"⟩, .ok Pass.newcomer⟩] _ := .told (.get ⟨"a", "b"⟩) (.still _)
    obtain ⟨given_up, -⟩ := (untold slow).1 _ _ _ _ keyed_impatient rfl alone
    obtain ⟨d, stored, untold⟩ := given_up _ _ _ leads
    exact ⟨_, _, d, leads, stored, untold⟩
  · obtain ⟨d, stored, ⟨-, untold⟩ | tells⟩ := direct slow (.ofSeconds 1) rfl
    · exact ⟨d, rfl, stored, untold⟩
    · obtain ⟨_, stored', silent⟩ := silent_overdue
      cases stored.symm.trans stored'
      exact absurd tells (silent _)
  · obtain ⟨d, stored, ⟨limit, -⟩ | tells⟩ := direct hapless ⟨7⟩ rfl
    · cases limit
    · exact ⟨d, rfl, stored, tells⟩

theorem timeout_unseen :
    ∃ (o d : Organization) (limit : Span),
      (impatient.store OrganizationSpec).get? ⟨"a", "b"⟩ = some o ∧ o.fits = true ∧
      o.wasDeleted = false ∧ overdue.1 = .error (.timeout limit) ∧
      (overdue.2.cluster.store OrganizationSpec).get? ⟨"a", "b"⟩ = some d ∧
      ¬d.TellsOf (.timeout limit) := by
  obtain ⟨d, stored, silent⟩ := silent_overdue
  exact ⟨_, d, .ofSeconds 1, rfl, rfl, rfl, rfl, stored, silent _⟩

end Cluster
end Tenancy
