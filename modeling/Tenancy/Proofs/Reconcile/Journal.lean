import Tenancy.Proofs.Reconcile.Program
import Tenancy.Reconcile.Pass

/-! A pass that keeps a journal of its steps is the same pass: it asks the same questions and comes
to the same outcome. -/

namespace Tenancy
namespace Pass

open Program

abbrev Talk (S : Type) := Dialogue (Request.Answer (S := S))

variable {S α : Type} {p : Phase} {s : Step} {ss : List Step} {r : Outcome} {t : Talk S}

/-- The pass has had the dialogue, fed the steps, and come to the outcome. -/
abbrev Tells (x : Pass S Journal) (t : Talk S) (ss : List Step) (r : Outcome) : Prop :=
  Leads x t (.done ⟨ss, r⟩)

def outcomes (x : Pass S Journal) : Pass S Outcome := x.bind fun j => .done j.outcome

theorem outcomes_bind (x : Pass S α) (f : α → Pass S Journal) :
    outcomes (x.bind f) = x.bind fun a => outcomes (f a) := by
  induction x with
  | done a => rfl
  | ask q next ih => exact congrArg (ask q) (funext ih)

theorem outcomes_feeds (s : Step) (x : Pass S Journal) : outcomes (feeds s x) = outcomes x := by
  induction x with
  | done j => rfl
  | ask q next ih => exact congrArg (ask q) (funext ih)

theorem outcomes_advance {next : Phase → Bool → Pass S Journal} {next' : Phase → Bool → Pass S _}
    (h : ∀ q persist, outcomes (next q persist) = next' q persist) :
    outcomes (advance p s next) = advance p s next' := by
  unfold advance
  rw [outcomes_feeds]
  cases p.transition s with
  | ok x => exact h x.1 x.2
  | error e => rfl

theorem leads_outcomes_iff {x : Pass S Journal} :
    Leads (outcomes x) t (.done r) ↔ ∃ ss, Tells x t ss r := by
  constructor
  · intro l
    obtain ⟨u, v, j, rfl, asked, l⟩ := leads_bind_done l
    cases l
    rw [List.append_nil]
    exact ⟨j.steps, asked⟩
  · rintro ⟨ss, l⟩
    have last : Leads (outcomes (.done ⟨ss, r⟩ : Pass S Journal)) [] (.done r) := .here _
    rw [← List.append_nil t]
    exact l.bind last

theorem tells_feeds {x : Pass S Journal} (l : Tells (feeds s x) t ss r) :
    ∃ later, ss = s :: later ∧ Tells x t later r := by
  obtain ⟨u, v, ⟨later, r⟩, rfl, asked, l⟩ := leads_bind_done l
  cases l
  rw [List.append_nil]
  exact ⟨later, rfl, asked⟩

variable [ResourceKind S] (logic : Logic S) (guard : Finalizer S) (wait : Span)

theorem outcomes_fail (p : Phase) (o : Resource S) (e : ReconcileError) :
    outcomes (fail p o e) = fail p o e := by
  refine outcomes_advance fun _ persist => ?_
  split
  · refine congrArg (ask _) (funext fun now => congrArg (ask _) (funext fun answer => ?_))
    cases answer <;> rfl
  · rfl

theorem outcomes_conclude (p : Phase) (persist : Bool) (o : Resource S) :
    outcomes (conclude logic p persist o) = conclude logic p persist o := by
  unfold conclude
  split
  · refine congrArg (ask _) (funext fun now => congrArg (ask _) (funext fun answer => ?_))
    cases answer with
    | ok => exact outcomes_advance fun _ _ => outcomes_bind _ _
    | error => exact outcomes_advance fun _ _ => rfl
  · exact outcomes_advance fun _ _ => outcomes_bind _ _

theorem outcomes_live (p : Phase) (o : Resource S) :
    outcomes (live logic guard p o) = live logic guard p o := by
  refine (outcomes_bind _ _).trans (congrArg _ (funext ?_))
  rintro ⟨o, e | ⟨⟩⟩
  · exact outcomes_fail _ _ _
  refine outcomes_advance fun p _ => (outcomes_bind _ _).trans (congrArg _ (funext ?_))
  rintro ⟨o, e | ⟨⟩⟩
  · exact outcomes_fail _ _ _
  refine outcomes_advance fun p _ => (outcomes_bind _ _).trans (congrArg _ (funext ?_))
  rintro ⟨o, e | ⟨⟩⟩
  · exact outcomes_fail _ _ _
  · exact outcomes_advance fun p persist => outcomes_conclude logic p persist o

theorem outcomes_finalize (p : Phase) (o : Resource S) :
    outcomes (finalize logic guard wait p o) = finalize logic guard wait p o := by
  refine (outcomes_bind _ _).trans (congrArg _ (funext ?_))
  rintro (e | ⟨⟨⟩ | ⟨⟩⟩)
  · exact outcomes_fail _ _ _
  · exact outcomes_advance fun _ _ => rfl
  refine (outcomes_bind _ _).trans (congrArg _ (funext ?_))
  rintro ⟨o, e | ⟨⟩⟩
  · exact outcomes_fail _ _ _
  · exact outcomes_advance fun _ _ => outcomes_bind _ _

theorem outcomes_run (key : Key) :
    outcomes (run logic guard wait key) = run logic guard wait key := by
  refine congrArg (ask _) (funext ?_)
  rintro (e | o)
  · dsimp only [Program.bind]
    split <;> exact outcomes_advance fun _ _ => rfl
  · dsimp only [Program.bind]
    split
    · exact outcomes_advance fun _ _ => rfl
    refine outcomes_advance fun p _ => ?_
    split
    · exact outcomes_finalize logic guard wait p o
    · exact outcomes_live logic guard p o

theorem leads_fail_iff {p : Phase} {o : Resource S} {e : ReconcileError} :
    Leads (fail p o e) t (.done r) ↔ ∃ ss, Tells (fail p o e) t ss r := by
  rw [← outcomes_fail, leads_outcomes_iff]

theorem leads_run_iff {key : Key} :
    Leads (run logic guard wait key) t (.done r) ↔
      ∃ ss, Tells (run logic guard wait key) t ss r := by
  rw [← outcomes_run, leads_outcomes_iff]

end Pass
end Tenancy
