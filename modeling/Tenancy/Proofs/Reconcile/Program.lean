import Tenancy.Reconcile.Program

/-! What programs do whoever answers them: the dialogues that they may have had, and what they ask
and end with as long as the answers are of a given sort. -/

namespace Tenancy
namespace Program

variable {Q P : Type} {Answer : Q → Type} {Reply : P → Type} {α β : Type}

abbrev Dialogue (Answer : Q → Type) : Type := List (Σ q, Answer q)

inductive Leads : Program Q Answer α → Dialogue Answer → Program Q Answer α → Prop
  | here (p) : Leads p [] p
  | told {q : Q} {next : Answer q → Program Q Answer α} {r t rest} (then_ : Leads (next r) t rest) :
    Leads (ask q next) (⟨q, r⟩ :: t) rest

/-- As long as what the asker knows changes with each answer as told, the program asks what is
allowed and ends as promised. -/
def Safe {σ : Type} (allowed : Q → Prop) (told : σ → (q : Q) → Answer q → σ → Prop)
    (promised : α → σ → Prop) : Program Q Answer α → σ → Prop
  | done a, s => promised a s
  | ask q next, s =>
    allowed q ∧ ∀ r s', told s q r s' → (next r).Safe allowed told promised s'

def Only (sort : Q → Prop) (p : Program Q Answer α) : Prop :=
  p.Safe sort (fun (_ : Unit) _ _ _ => True) (fun _ _ => True) ()

variable {p rest : Program Q Answer α} {t : Dialogue Answer}

theorem Leads.trans {u : Dialogue Answer} {last : Program Q Answer α} (h : Leads p t rest)
    (h' : Leads rest u last) : Leads p (t ++ u) last := by
  induction h with
  | here => exact h'
  | told _ ih => exact .told (ih h')

theorem Leads.concat {q : Q} {next : Answer q → Program Q Answer α} (h : Leads p t (ask q next))
    (r : Answer q) : Leads p (t ++ [⟨q, r⟩]) (next r) :=
  h.trans (.told (.here _))

theorem Leads.bind {f : α → Program Q Answer β} {a : α} {u : Dialogue Answer}
    {last : Program Q Answer β} (h : Leads p t (done a)) (h' : Leads (f a) u last) :
    Leads (p.bind f) (t ++ u) last := by
  induction p generalizing t with
  | done b =>
    cases h
    exact h'
  | ask x n ih =>
    cases h with
    | told h => exact .told (ih _ h)

theorem leads_bind {f : α → Program Q Answer β} {q : Q} {next : Answer q → Program Q Answer β}
    (h : Leads (p.bind f) t (ask q next)) :
    (∃ n, Leads p t (ask q n)) ∨
      ∃ t₁ t₂ a, t = t₁ ++ t₂ ∧ Leads p t₁ (done a) ∧ Leads (f a) t₂ (ask q next) := by
  induction p generalizing t with
  | done a => exact .inr ⟨[], t, a, rfl, .here _, h⟩
  | ask x n ih =>
    cases h with
    | here => exact .inl ⟨n, .here _⟩
    | @told _ _ r t _ l =>
      rcases ih r l with ⟨m, hm⟩ | ⟨t₁, t₂, a, rfl, ha, hf⟩
      · exact .inl ⟨m, .told hm⟩
      · exact .inr ⟨⟨x, r⟩ :: t₁, t₂, a, rfl, .told ha, hf⟩

theorem leads_bind_done {f : α → Program Q Answer β} {b : β} (h : Leads (p.bind f) t (done b)) :
    ∃ t₁ t₂ a, t = t₁ ++ t₂ ∧ Leads p t₁ (done a) ∧ Leads (f a) t₂ (done b) := by
  induction p generalizing t with
  | done a => exact ⟨[], t, a, rfl, .here _, h⟩
  | ask x n ih =>
    cases h with
    | @told _ _ r t _ l =>
      obtain ⟨t₁, t₂, a, rfl, ha, hf⟩ := ih r l
      exact ⟨⟨x, r⟩ :: t₁, t₂, a, rfl, .told ha, hf⟩

section

variable {σ : Type} {allowed : Q → Prop} {told : σ → (q : Q) → Answer q → σ → Prop}
  {promised promised' : α → σ → Prop} {s : σ}

theorem Safe.imp (h : p.Safe allowed told promised s)
    (weaker : ∀ a s, promised a s → promised' a s) : p.Safe allowed told promised' s := by
  induction p generalizing s with
  | done a => exact weaker a s h
  | ask q next ih => exact ⟨h.1, fun r s' hr => ih r (h.2 r s' hr)⟩

theorem safe_bind {f : α → Program Q Answer β} {promised : β → σ → Prop}
    (h : p.Safe allowed told (fun a s => (f a).Safe allowed told promised s) s) :
    (p.bind f).Safe allowed told promised s := by
  induction p generalizing s with
  | done a => exact h
  | ask q next ih => exact ⟨h.1, fun r s' hr => ih r (h.2 r s' hr)⟩

end

theorem Only.leads {sort : Q → Prop} (h : p.Only sort) (l : Leads p t rest) : rest.Only sort := by
  induction l with
  | here => exact h
  | told _ ih => exact ih (h.2 _ () trivial)

theorem Only.mem {sort : Q → Prop} (h : p.Only sort) (l : Leads p t rest) :
    ∀ e ∈ t, sort e.1 := by
  induction l with
  | here => exact List.forall_mem_nil _
  | told _ ih =>
    intro e he
    rcases List.mem_cons.1 he with rfl | he
    · exact h.1
    · exact ih (h.2 _ () trivial) e he

theorem only_bind {sort : Q → Prop} {f : α → Program Q Answer β} (h : p.Only sort)
    (hf : ∀ a, (f a).Only sort) : (p.bind f).Only sort :=
  safe_bind (h.imp fun a _ _ => hf a)

theorem only_embed {sort : Q → Prop} {f : P → Q} {answer : ∀ p, Answer (f p) → Reply p}
    (hf : ∀ p, sort (f p)) (i : Program P Reply α) : (embed f answer i).Only sort := by
  induction i with
  | done a => trivial
  | ask q next ih => exact ⟨hf q, fun r _ _ => ih _⟩

end Program
end Tenancy
