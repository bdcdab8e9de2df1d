import Tenancy.Proofs.Pacer
import Tenancy.Proofs.Reconcile.Manner

/-! The pace of passes. An identity that was counted past the threshold is told the steady wait
until it is forgotten. A pass over an object that has converged asks for the pace of its key, and
asks to come back after the wait that it was told; with a logic that has nothing to clean up it asks
for no other wait. -/

namespace Tenancy

namespace Pacer

variable (p : Pacer) {i j : String}

def Past (i : String) : Prop := ∃ n, p.count? i = some n ∧ p.threshold < n

variable {p}

theorem Past.lt_getD (h : p.Past i) : p.threshold < (p.count? i).getD 0 := by
  obtain ⟨n, count, past⟩ := h
  rwa [count, Option.getD_some]

theorem Past.nextDelay_self (h : p.Past i) : p.nextDelay i = (p.steadyWait, p) :=
  nextDelay_of_lt h.lt_getD

theorem Past.nextDelay (h : p.Past i) (j : String) : (p.nextDelay j).2.Past i := by
  by_cases hj : j = i
  · subst hj
    rw [h.nextDelay_self]
    exact h
  · obtain ⟨n, count, past⟩ := h
    exact ⟨n, (count?_nextDelay_of_ne hj).trans count, (p.threshold_nextDelay j).symm ▸ past⟩

theorem Past.forget (h : p.Past i) (hj : j ≠ i) : (p.forget j).Past i := by
  obtain ⟨n, count, past⟩ := h
  exact ⟨n, (count?_forget_of_ne hj).trans count, past⟩

end Pacer

namespace Pass

open Program

variable {S : Type} {apply : Resource S → Inquiry (Hooked S)} {short wait : Span} {k : Key}
  {o b : Resource S} {t g : Talk S} {d : Span}

def Steadily (k : Key) (wait : Span) (q : Request S) (answer : q.Answer) : Prop :=
  q.Apt answer ∧ ∀ d, (⟨q, answer⟩ : Σ q : Request S, q.Answer) =
    ⟨.logic (.nextDelay k.identity), d⟩ → d = wait

variable [ResourceKind S]

theorem Guards.key (h : Guards o g b) (apt : ∀ said ∈ g, said.1.Apt said.2) : b.key = o.key := by
  cases h with
  | had | refused => rfl
  | given =>
    have updated : b.key = (o.withFinalizer _).key := (apt _ (List.mem_singleton_self _) b rfl).1
    exact updated.trans (o.key_withFinalizer _)

theorem Reaches.key {logic : Logic S} {ss : List Step} (steady : logic.Steady)
    (reaches : Reaches logic .inStore k .applied o ss t)
    (apt : ∀ said ∈ t, said.1.Apt said.2) : o.key = k := by
  obtain ⟨x, g, b, -, asked, guards, copies⟩ := reaches.guards steady (by simp) (by simp)
  have apt : ∀ said ∈ calls t, said.1.Apt said.2 := fun said hs => apt said (List.mem_filter.1 hs).1
  rw [asked, List.forall_mem_cons] at apt
  exact copies.1.trans ((guards.key apt.2).trans (apt.1 x rfl))

theorem Records.fails {e : ReconcileError} {w : Option (StatusWrite S)} {r : Outcome}
    (h : Records o e w t r) : ∃ e', r = .error e' := by
  cases h with
  | stale => exact ⟨e, rfl⟩
  | recorded _ now answer => cases answer <;> exact ⟨_, rfl⟩

theorem wait_of_run (steady : (Logic.paced apply).Steady)
    (leads : Leads (run (.paced apply) .inStore short k) t (.done (.ok (some d))))
    (told : ∀ said ∈ t, Steadily k wait said.1 said.2) : d = wait := by
  obtain ⟨c, takes⟩ := takes_of_run leads
  cases takes with
  | broken _ _ records =>
    obtain ⟨e, he⟩ := records.fails
    cases he
  | pending _ l => cases l
  | @converged o ss t u a _ reaches now l =>
    have same : (succeeded o now).key = o.key := rfl
    have key : o.key = k := reaches.key steady fun said hs => (told said (by simp [hs])).1
    have asked : Leads (inquire (.question (Ask.nextDelay (succeeded o now).key.identity))) u
      (.done d : Pass S Span) := l
    rw [same, key] at asked
    cases asked with
    | @told _ _ d _ _ rest =>
      cases rest
      exact (told ⟨.logic (.nextDelay k.identity), d⟩ (by simp)).2 d rfl

/-- What is left of a pass that is told a given wait for the pace of its key, or was given up. -/
def Paced (apply : Resource S → Inquiry (Hooked S)) (short wait : Span) (k : Key)
    (p : Pass S Outcome) : Prop :=
  (∃ e, p = .done (.error e)) ∨
    ∃ t, Leads (run (.paced apply) .inStore short k) t p ∧ ∀ said ∈ t, Steadily k wait said.1 said.2

theorem Paced.next {q : Request S} {next : q.Answer → Pass S Outcome} {r : q.Answer}
    (h : Paced apply short wait k (.ask q next)) (told : Steadily k wait q r) :
    Paced apply short wait k (next r) := by
  rcases h with ⟨e, he⟩ | ⟨t, leads, before⟩
  · cases he
  · refine .inr ⟨t ++ [⟨q, r⟩], leads.concat r, fun said hs => ?_⟩
    rcases List.mem_append.1 hs with hs | hs
    · exact before said hs
    · cases List.mem_singleton.1 hs
      exact told

theorem Paced.wait_eq (steady : (Logic.paced apply).Steady)
    (h : Paced apply short wait k (.done (.ok (some d)))) : d = wait := by
  rcases h with ⟨e, he⟩ | ⟨t, leads, told⟩
  · cases he
  · exact wait_of_run steady leads told

end Pass
end Tenancy
