import Tenancy.Proofs.Deployment.Verdict
import Tenancy.Proofs.Reconcile.Finalizer
import Tenancy.Proofs.Reconcile.Program
import Tenancy.Reconcile.Pass

/-! Passes of deployments while others change the stores between their questions. A pass writes
nothing but the object of its key; and if it was not disturbed, it leaves an observed state that is
right whenever it ends well or finds no organization. -/

namespace Tenancy

theorem Resource.key_withFinalizer {S : Type} (o : Resource S) (f : String) :
    (o.withFinalizer f).key = o.key := by
  unfold withFinalizer Metadata.addFinalizer
  split <;> rfl

theorem Resource.key_withObserved {S : Type} (o : Resource S) : o.withObserved.key = o.key := by
  unfold withObserved allocate
  split <;> rfl

theorem Resource.spec_withObserved {S : Type} (o : Resource S) : o.withObserved.spec = o.spec := by
  unfold withObserved allocate
  split <;> rfl

namespace Request

variable {S : Type}

def About (k : Key) : Request S → Prop
  | update o | updateStatus o => o.key = k
  | get _ | clock | logic _ => True

def Apt : (q : Request S) → q.Answer → Prop
  | get key, r => ∀ o, r = .ok o → o.key = key
  | update o, r => ∀ p, r = .ok p → p.key = o.key ∧ p.spec = o.spec
  | updateStatus _, _ | clock, _ | logic _, _ => True

variable [ResourceKind S] {s : Store S} {q : Request S} {r : q.Answer}

def Answers (s : Store S) : (q : Request S) → q.Answer → Prop
  | get key, r => r = s.get key
  | update o, r => r = (s.update o).answer
  | updateStatus o, r => r = (s.updateStatus o).answer
  | clock, _ | logic _, _ => True

theorem Answers.apt (h : q.Answers s r) (keyed : s.Keyed) : q.Apt r := by
  cases q with
  | get key =>
    have h : r = s.get key := h
    exact fun o ho => keyed key o (Store.get_eq_ok.1 (h ▸ ho))
  | update o =>
    have h : r = (s.update o).answer := h
    exact fun p hp => Store.update_answer (h ▸ hp)
  | updateStatus | clock | logic => trivial

end Request

def Outcome.Conclusive : Outcome → Prop
  | .ok _ | .error (.organizationNotFound _) => True
  | _ => False

namespace Stores

variable {k : Key} {a b c : Stores}

inductive Asked (a : Stores) : (q : Request DeploymentSpec) → q.Answer → Stores → Prop
  | get (key) : Asked a (.get key) (a.deps.get key) a
  | update (o) : Asked a (.update o) (a.deps.update o).answer ⟨(a.deps.update o).store, a.orgs⟩
  | updateStatus (o) :
    Asked a (.updateStatus o) (a.deps.updateStatus o).answer
      ⟨(a.deps.updateStatus o).store, a.orgs⟩
  | clock (now) : Asked a .clock now a
  | organizations : Asked a (.logic .organizations) (.ok a.orgs.list) a
  | logic {l} (other : l ≠ .organizations) (r : l.Answer) : Asked a (.logic l) r a

theorem Asked.apt {q : Request DeploymentSpec} {r : q.Answer} (h : Asked a q r b)
    (keyed : a.deps.Keyed) : q.Apt r := by
  have answers : q.Answers a.deps r := by cases h <;> trivial
  exact answers.apt keyed

/-! ### What a pass knows -/

/-- The stores as they were at the last answer; nothing is known after a disturbance. -/
abbrev Known := Option Stores

def Knows (P : Stores → Prop) (e : Known) : Prop := ∀ a, e = some a → P a

/-- What becomes of the knowledge with an answer. It is kept if nothing happened to the deployment
since the last one, and the question changed nothing but what was observed. -/
inductive Heard (k : Key) : Known → (q : Request DeploymentSpec) → q.Answer → Known → Prop
  | known {a b c q r} (apt : q.Apt r) (quiet : Untouched k a b) (asked : Asked b q r c)
    (alike : Alike k b c) : Heard k (some a) q r (some c)
  | lost {e q r} (apt : q.Apt r) : Heard k e q r none

theorem Heard.apt {e e' : Known} {q : Request DeploymentSpec} {r : q.Answer}
    (h : Heard k e q r e') : q.Apt r := by
  cases h <;> assumption

theorem Heard.knows {e e' : Known} {q : Request DeploymentSpec} {r : q.Answer} {P : Stores → Prop}
    (steady : ∀ a b, Alike k a b → P a → P b) (h : Heard k e q r e') (hP : Knows P e) :
    Knows P e' := by
  cases h with
  | lost => exact fun _ ha => by cases ha
  | known _ quiet _ alike =>
    rintro _ ⟨⟩
    exact steady _ _ (quiet.toAlike.trans alike) (hP _ rfl)

theorem Heard.logic {e e' : Known} {l : Ask} {r : l.Answer} (h : Heard k e (.logic l) r e')
    (hP : Knows (Fulfilled k) e) : Knows (Fulfilled k) e' := by
  cases h with
  | lost => exact fun _ ha => by cases ha
  | known _ quiet asked _ =>
    rintro _ ⟨⟩
    have right := (hP _ rfl).untouched quiet
    cases asked <;> exact right

def Marked (k : Key) (a : Stores) : Prop :=
  ∀ d, a.deps.get? k = some d → d.wasDeleted = true

/-- The deployment is there without a mark, and the object has its specification. -/
def Holds (k : Key) (x : Deployment) (a : Stores) : Prop :=
  ∃ d, a.deps.get? k = some d ∧ d.wasDeleted = false ∧ (d.spec == x.spec) = true

def Judged (k : Key) (x : Deployment) (a : Stores) : Prop :=
  Holds k x a ∧ ∃ v, x.status.observed = some v ∧
    (v == Deployment.verdict x a.orgs.list) = true

theorem Marked.alike (h : Marked k a) (alike : Alike k a b) : Marked k b := by
  intro e he
  obtain ⟨d, hd, like⟩ := alike.back he
  exact like.1 ▸ h d hd

theorem Marked.fulfilled (h : Marked k a) : Fulfilled k a := by
  intro d hd live
  rw [h d hd] at live
  cases live

theorem Holds.alike {x : Deployment} (h : Holds k x a) (alike : Alike k a b) : Holds k x b := by
  obtain ⟨d, hd, live, spec⟩ := h
  obtain ⟨e, he, like⟩ := alike.forth hd
  exact ⟨e, he, like.1 ▸ live, BEq.trans (BEq.symm like.2) spec⟩

theorem Judged.alike {x : Deployment} (hx : x.key = k) (h : Judged k x a) (alike : Alike k a b) :
    Judged k x b := by
  obtain ⟨holds, v, hv, right⟩ := h
  have ⟨d, hd, _⟩ := holds
  have same := alike.verdict hx hx (BEq.refl _) (by simp [hd])
  exact ⟨holds.alike alike, v, hv, BEq.trans right same⟩

theorem Judged.write {x p : Deployment} (hx : x.key = k) (h : Judged k x a)
    (keyed : a.deps.Keyed ∧ a.orgs.Keyed) (ok : (a.deps.updateStatus x).answer = .ok p) :
    Fulfilled k ⟨(a.deps.updateStatus x).store, a.orgs⟩ := by
  obtain ⟨⟨d, hd, live, spec⟩, v, hv, right⟩ := h
  obtain ⟨c, hc, written⟩ := Store.get?_updateStatus keyed.1 ok
  rw [hx] at hc written
  cases hd.symm.trans hc
  intro e he _
  cases written.symm.trans he
  show (x.status.observed == some _) = true
  rw [hv]
  refine BEq.trans (α := Observed) right ?_
  refine Deployment.verdict_congr ?_ (BEq.symm spec) keyed.2 keyed.2 ?_
  · exact hx.trans (keyed.1 k d hd).symm
  · exact fun _ _ => Resource.Like.option_refl _

/-! ### Steps of a pass -/

/-- The promise of a pass: if its outcome is conclusive, the observed state is right. -/
def Settles (k : Key) (r : Outcome) (e : Known) : Prop := r.Conclusive → Knows (Fulfilled k) e

abbrev Upholds (k : Key) (p : Pass DeploymentSpec Outcome) (e : Known) : Prop :=
  p.Safe (Request.About k) (Heard k) (Settles k) e

variable {e : Known} {o : Deployment} {p q : Phase} {s : Step} {persist : Bool}

theorem upholds_advance {next : Phase → Bool → Pass DeploymentSpec Outcome}
    (h : p.transition s = .ok (q, persist)) (hn : Upholds k (next q persist) e) :
    Upholds k (Pass.advance p s next) e := by
  unfold Pass.advance
  rw [h]
  exact hn

theorem safe_writeStatus {C : Prop} (key : o.key = k) (h : C → Knows (Judged k o) e) :
    (Pass.writeStatus o).Safe (Request.About k) (Heard k)
      (fun r e => (∀ c, r = .error c → ¬Outcome.Conclusive (.error c)) ∧
        (r = .ok () → C → Knows (Fulfilled k) e)) e := by
  refine ⟨key, fun r e' heard => ?_⟩
  cases r with
  | error c =>
    refine ⟨?_, fun hr => by cases hr⟩
    rintro _ ⟨⟩ ⟨⟩
  | ok x =>
    refine ⟨nofun, fun _ hc => ?_⟩
    cases heard with
    | lost => exact fun _ ha => by cases ha
    | known _ quiet asked alike =>
      rintro _ ⟨⟩
      -- the object was judged by the stores as they are at the question, so the write is right
      have judged := (h hc _ rfl).alike key quiet.toAlike
      generalize hr : (Except.ok x : Except StoreError Deployment) = r at asked
      cases asked
      exact judged.write key quiet.keyed.2 hr.symm

theorem Judged.setConditions {x : Deployment} (h : Judged k x a) (cs : List Condition) :
    Judged k (x.setConditions cs) a :=
  -- conditions are not observed state
  h

theorem safe_clock {promised : Instant → Known → Prop}
    (h : ∀ now e', Heard k e .clock now e' → promised now e') :
    Pass.clock.Safe (Request.About k) (Heard k) promised e :=
  ⟨trivial, h⟩

theorem upholds_fail {c : ReconcileError} (key : o.key = k)
    (hp : p.transition .failed = .ok (q, persist))
    (h : Outcome.Conclusive (.error c) → persist = true ∧ c.isConflict = false ∧
      Knows (Judged k o) e) :
    Upholds k (Pass.fail p o c) e := by
  refine upholds_advance hp ?_
  split
  · refine Program.safe_bind (safe_clock fun now e' heard => Program.safe_bind ?_)
    have judged (hc : Outcome.Conclusive (.error c)) : Knows (Judged k o) e' :=
      heard.knows (fun _ _ alike judged => judged.alike key alike) (h hc).2.2
    refine (safe_writeStatus (o := o.setConditions _) key
      fun hc a ha => (judged hc a ha).setConditions _).imp ?_
    rintro (d | _) e'' ⟨inconclusive, written⟩
    · exact fun hd => absurd hd (inconclusive d rfl)
    · exact written rfl
  · rename_i skip
    intro hc
    obtain ⟨rfl, conflict, -⟩ := h hc
    simp [conflict] at skip

theorem upholds_fail' {c : ReconcileError} (key : o.key = k)
    (hp : p.transition .failed = .ok (q, persist)) (h : ¬Outcome.Conclusive (.error c)) :
    Upholds k (Pass.fail p o c) e :=
  upholds_fail key hp fun hc => absurd hc h

theorem upholds_conclude (key : o.key = k) (h : Knows (Judged k o) e) :
    Upholds k (Pass.conclude Deployment.logic .applied true o) e := by
  refine Program.safe_bind (safe_clock fun now e' heard => Program.safe_bind ?_)
  have judged : Knows (Judged k o) e' :=
    heard.knows (fun _ _ alike judged => judged.alike key alike) h
  refine (safe_writeStatus (o := o.setConditions _) (C := True) key
    fun _ a ha => (judged a ha).setConditions _).imp ?_
  rintro (d | _) e'' ⟨inconclusive, written⟩
  · exact upholds_advance rfl fun hc => absurd hc (inconclusive d rfl)
  · refine upholds_advance rfl ⟨trivial, fun r e₃ heard => ?_⟩
    exact fun _ => heard.logic (written rfl trivial)

theorem Heard.judged {e' : Known} {os : List Organization}
    (heard : Heard k e (.logic .organizations) (.ok os) e') (h : Knows (Holds k o) e) :
    Knows (Judged k (o.setObserved (Deployment.verdict o os))) e' := by
  cases heard with
  | lost => exact fun _ ha => by cases ha
  | @known a b c _ _ _ quiet asked _ =>
    rintro _ ⟨⟩
    have holds := (h a rfl).alike quiet.toAlike
    generalize hr : (Except.ok os : Except StoreError (List Organization)) = r at asked
    cases asked with
    | organizations =>
      cases hr
      exact ⟨holds, _, rfl, BEq.refl (Deployment.verdict o b.orgs.list)⟩
    | logic other => exact absurd rfl other

theorem safe_apply (key : o.key = k) (h : Knows (Holds k o) e) :
    (Pass.inquire (Deployment.logic.apply o)).Safe (Request.About k) (Heard k)
      (fun g e => g.1.key = k ∧ (g.2 = .ok () → Knows (Judged k g.1) e) ∧
        ∀ c, g.2 = .error c → Outcome.Conclusive (.error c) →
          c.isConflict = false ∧ Knows (Judged k g.1) e) e := by
  refine ⟨trivial, fun r e' heard => ?_⟩
  cases r with
  | error c =>
    refine ⟨key, nofun, ?_⟩
    rintro _ ⟨⟩ hc
    cases c <;> cases hc
  | ok os =>
    have judged := heard.judged h
    unfold Deployment.verdict at judged
    dsimp only [Program.bind]
    cases hp : Deployment.parent? o os with
    | none =>
      rw [hp] at judged
      refine ⟨key, nofun, ?_⟩
      rintro _ ⟨⟩ -
      exact ⟨rfl, judged⟩
    | some parent =>
      rw [hp] at judged
      exact ⟨key, fun _ => judged, nofun⟩

theorem upholds_live (key : o.key = k) (h : Knows (Holds k o) e) :
    Upholds k (Pass.live Deployment.logic .inStore .live o) e := by
  have guarded : (Pass.amend (Finalizer.addInStore o)).Safe (Request.About k) (Heard k)
      (fun g e => g.1.key = k ∧ (g.2 = .ok () → Knows (Holds k g.1) e)) e := by
    rw [Finalizer.addInStore_eq]
    split
    · exact ⟨key, fun _ => h⟩
    · have key' : (o.withFinalizer (ResourceKind.finalizer DeploymentSpec)).key = k :=
        (o.key_withFinalizer _).trans key
      refine ⟨key', fun r e' heard => ?_⟩
      cases r with
      | error c => exact ⟨key', nofun⟩
      | ok x =>
        obtain ⟨keyx, specx⟩ := heard.apt x rfl
        have holds : Knows (Holds k o) e' :=
          heard.knows (fun _ _ alike holds => holds.alike alike) h
        refine ⟨keyx.trans key', fun _ a ha => ?_⟩
        obtain ⟨d, hd, live, spec⟩ := holds a ha
        exact ⟨d, hd, live, specx ▸ spec⟩
  refine Program.safe_bind (guarded.imp ?_)
  rintro ⟨x, c | ⟨⟩⟩ e' ⟨keyx, holds⟩
  · exact upholds_fail' keyx rfl nofun
  -- from here on the object in hand has the stored specification
  refine upholds_advance (p := .live) (s := .finalizerAdded) rfl (Program.safe_bind ?_)
  refine upholds_advance (p := .guarded) (s := .resourceInitialized) rfl (Program.safe_bind ?_)
  refine (safe_apply (o := x.withObserved) (x.key_withObserved.trans keyx) ?_).imp ?_
  · rintro a ha
    rw [Holds, x.spec_withObserved]
    exact holds rfl a ha
  · rintro ⟨y, c | ⟨⟩⟩ e'' ⟨keyy, fine, failed⟩
    · exact upholds_fail keyy rfl fun hc => ⟨rfl, failed c rfl hc⟩
    · refine upholds_advance (p := .initialized) (s := .logicApplied) rfl ?_
      exact upholds_conclude keyy (fine rfl)

theorem upholds_finalize {wait : Span} (key : o.key = k) (h : Knows (Marked k) e) :
    Upholds k (Pass.finalize Deployment.logic .inStore wait .deleting o) e := by
  have given : (Pass.amend (Finalizer.removeInStore o)).Safe (Request.About k) (Heard k)
      (fun g e => g.1.key = k ∧ Knows (Marked k) e) e := by
    rw [Finalizer.removeInStore_eq]
    split
    · exact ⟨key, h⟩
    · refine ⟨key, fun r e' heard => ?_⟩
      have marked := heard.knows (fun _ _ alike marked => marked.alike alike) h
      cases r with
      | error c => exact ⟨key, marked⟩
      | ok x => exact ⟨(heard.apt x rfl).1.trans key, marked⟩
  refine Program.safe_bind (Program.safe_bind (given.imp ?_))
  rintro ⟨x, c | ⟨⟩⟩ e' ⟨keyx, marked⟩
  · exact upholds_fail' keyx rfl nofun
  · refine upholds_advance (p := .deleting) (s := .finalizerRemoved) rfl
      ⟨trivial, fun _ e'' heard => ?_⟩
    have marked := heard.knows (fun _ _ alike marked => marked.alike alike) marked
    exact fun _ a ha => (marked a ha).fulfilled

theorem upholds_run (wait : Span) (e : Known) :
    Upholds k (Pass.run Deployment.logic .inStore wait k) e := by
  refine ⟨trivial, fun r e' heard => ?_⟩
  have fetched {P : Stores → Prop} (h : ∀ a b : Stores, a.deps.get k = r → Alike k a b → P b) :
      Knows P e' := by
    cases heard with
    | lost => exact fun _ ha => by cases ha
    | known _ _ asked alike =>
      rintro _ ⟨⟩
      cases asked
      exact h _ _ rfl alike
  cases r with
  | error c =>
    dsimp only [Program.bind]
    split
    · refine upholds_advance (p := .fetching) (s := .vanished) rfl fun _ => ?_
      refine fetched fun a b ha alike d hd => ?_
      obtain ⟨x, hx, -⟩ := alike.back hd
      rw [Store.get_eq_ok.2 hx] at ha
      cases ha
    · refine upholds_advance (p := .fetching) (s := .failed) rfl fun hc => ?_
      cases c <;> cases hc
  | ok o =>
    have key : o.key = k := heard.apt o rfl
    dsimp only [Program.bind]
    split
    · exact upholds_advance (p := .fetching) (s := .failed) rfl nofun
    · cases hd : o.wasDeleted with
      | true =>
        refine upholds_advance (p := .fetching) (s := .fetched true) rfl ?_
        refine upholds_finalize key (fetched fun a b ha alike d hb => ?_)
        obtain ⟨x, hx, like⟩ := alike.back hb
        cases hx.symm.trans (Store.get_eq_ok.1 ha)
        exact like.1 ▸ hd
      | false =>
        refine upholds_advance (p := .fetching) (s := .fetched false) rfl ?_
        refine upholds_live key (fetched fun a b ha alike => ?_)
        obtain ⟨x, hx, like⟩ := alike.forth (Store.get_eq_ok.1 ha)
        exact ⟨x, hx, like.1 ▸ hd, BEq.symm like.2⟩

/-! ### Passes among others -/

variable {program : Pass DeploymentSpec Outcome}

/-- What others do meanwhile is no disturbance if it leaves the deployment untouched. -/
theorem Upholds.untouched (h : Upholds k program (some a)) (u : Untouched k a b) :
    Upholds k program (some b) := by
  cases program with
  | done r =>
    rintro hr _ ⟨⟩
    exact (h hr a rfl).untouched u
  | ask q next =>
    refine ⟨h.1, fun r e' heard => ?_⟩
    cases heard with
    | known apt quiet asked alike => exact h.2 r _ (.known apt (u.trans quiet) asked alike)
    | lost apt => exact h.2 r none (.lost apt)

theorem Upholds.asked {q : Request DeploymentSpec} {next : q.Answer → Pass DeploymentSpec Outcome}
    {r : q.Answer} (h : Upholds k (.ask q next) (some a)) (asked : Asked a q r b)
    (alike : Alike k a b) : Upholds k (next r) (some b) :=
  h.2 r _ (.known (asked.apt alike.keyed.1.1) (.refl alike.keyed.1.1 alike.keyed.1.2) asked alike)

end Stores
end Tenancy
