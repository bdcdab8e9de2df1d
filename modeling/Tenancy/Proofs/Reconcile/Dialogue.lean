import Mathlib.Logic.Basic
import Tenancy.Proofs.Reconcile.Finalizer
import Tenancy.Proofs.Reconcile.Program
import Tenancy.Proofs.Store.Effect
import Tenancy.Reconcile.Pass

/-! What a pass asks of the store. It asks for an update at most once: to guard an object that is
not marked, or to give one up that is, after its hook has cleaned up. -/

namespace Tenancy

namespace Request

variable {S : Type}

def write? : Request S → Option (Write S)
  | update o => some (.update o)
  | updateStatus o => some (.updateStatus o)
  | get _ | clock | logic _ => none

def Mild : Request S → Prop
  | update _ => False
  | get _ | updateStatus _ | clock | logic _ => True

end Request

namespace Pass

open Program

variable {S α : Type}

theorem only_inquire (i : Inquiry α) : (inquire i : Pass S α).Only Request.Mild :=
  only_embed (fun _ => trivial) i

theorem only_advance {p : Phase} {s : Step} {next : Phase → Bool → Pass S Outcome}
    (h : ∀ q b, (next q b).Only Request.Mild) : (advance p s next).Only Request.Mild := by
  unfold advance
  split
  · exact h _ _
  · trivial

theorem only_clock : (clock : Pass S Instant).Only Request.Mild := ⟨trivial, fun _ _ _ => trivial⟩

theorem not_update {p : Pass S α} {next : _ → Pass S α} {written : Resource S}
    {t : Dialogue Request.Answer} (h : p.Only Request.Mild) :
    ¬Leads p t (.ask (.update written) next) := by
  intro l
  have mild := h.leads l
  exact mild.1

variable [ResourceKind S]

theorem only_writeStatus (o : Resource S) : (writeStatus o).Only Request.Mild := by
  refine ⟨trivial, fun r _ _ => ?_⟩
  cases r <;> trivial

theorem only_fail (p : Phase) (o : Resource S) (e : ReconcileError) :
    (fail p o e).Only Request.Mild := by
  refine only_advance fun _ persist => ?_
  split
  · refine only_bind only_clock fun now => only_bind (only_writeStatus _) fun r => ?_
    cases r <;> trivial
  · trivial

theorem only_conclude (logic : Logic S) (p : Phase) (persist : Bool) (o : Resource S) :
    (conclude logic p persist o).Only Request.Mild := by
  have go (o : Resource S) : (advance p .statusWritten fun _ _ => do
      return .ok (some (← inquire (logic.delay o))) : Pass S Outcome).Only Request.Mild :=
    only_advance fun _ _ => only_bind (only_inquire _) fun _ => trivial
  unfold conclude
  split
  · refine only_bind only_clock fun now => only_bind (only_writeStatus _) fun r => ?_
    cases r with
    | ok => exact go _
    | error => exact only_advance fun _ _ => trivial
  · exact go o

/-! ### The updates of a pass -/

variable {logic : Logic S} {o written : Resource S} {t : Dialogue Request.Answer}

theorem update_of_add {next : _ → Pass S (Hooked S)}
    (h : Leads (amend (Finalizer.addInStore o)) t (.ask (.update written) next)) :
    written = o.withFinalizer (ResourceKind.finalizer S) := by
  rw [Finalizer.addInStore_eq] at h
  split at h
  · cases h
  · cases h with
    | here => rfl
    | @told _ _ r _ _ l => cases r <;> cases l

theorem update_of_remove {next : _ → Pass S (Hooked S)}
    (h : Leads (amend (Finalizer.removeInStore o)) t (.ask (.update written) next)) :
    t = [] ∧ o.hasOwnFinalizer = true ∧
      written = o.withoutFinalizer (ResourceKind.finalizer S) := by
  rw [Finalizer.removeInStore_eq] at h
  split at h
  · cases h
  · rename_i own
    cases h with
    | here => exact ⟨rfl, by simpa using own, rfl⟩
    | @told _ _ r _ _ l => cases r <;> cases l

variable {next : Except StoreError (Resource S) → Pass S Outcome}

theorem update_of_live {p : Phase}
    (h : Leads (live logic .inStore p o) t (.ask (.update written) next)) :
    written = o.withFinalizer (ResourceKind.finalizer S) := by
  rcases leads_bind h with ⟨n, l⟩ | ⟨t₁, t₂, ⟨x, e | ⟨⟩⟩, -, -, l⟩
  · exact update_of_add l
  · exact absurd l (not_update (only_fail p x _))
  · refine absurd l (not_update (only_advance fun p _ => only_bind (only_inquire _) ?_))
    -- once the finalizer is there, nothing but the status is written
    rintro ⟨x, e | ⟨⟩⟩
    · exact only_fail p x e
    refine only_advance fun p _ => only_bind (only_inquire _) ?_
    rintro ⟨x, e | ⟨⟩⟩
    · exact only_fail p x e
    · exact only_advance fun p persist => only_conclude logic p persist x

theorem update_of_finalize {p : Phase} {wait : Span}
    (h : Leads (finalize logic .inStore wait p o) t (.ask (.update written) next)) :
    o.hasOwnFinalizer = true ∧ written = o.withoutFinalizer (ResourceKind.finalizer S) ∧
      Leads (inquire (logic.cleanUp o)) t (.done (.ok true)) := by
  rcases leads_bind h with ⟨n, l⟩ | ⟨t₁, t₂, r, rfl, asked, l⟩
  · exact absurd l (not_update (only_inquire _))
  · cases r with
    | error e => exact absurd l (not_update (only_fail p o e))
    | ok clean =>
      cases clean with
      | false =>
        refine absurd l (not_update (only_advance fun _ _ => ?_))
        trivial
      | true =>
        rcases leads_bind l with ⟨n, l⟩ | ⟨t₃, t₄, ⟨x, r⟩, -, -, l⟩
        · obtain ⟨rfl, own, hw⟩ := update_of_remove l
          rw [List.append_nil]
          exact ⟨own, hw, asked⟩
        · cases r with
          | error e => exact absurd l (not_update (only_fail p x _))
          | ok =>
            refine absurd l (not_update (only_advance fun _ _ => ?_))
            exact only_bind (only_inquire _) fun _ => trivial

/-- An update of a pass guards the object that it fetched, or gives it up: then the object was
marked and had the finalizer, and the hook has said that all is cleaned up. -/
theorem update_of_run {wait : Span} {key : Key}
    (h : Leads (run logic .inStore wait key) t (.ask (.update written) next)) :
    ∃ o t', t = ⟨.get key, .ok o⟩ :: t' ∧
      (o.wasDeleted = false ∧ written = o.withFinalizer (ResourceKind.finalizer S) ∨
        o.wasDeleted = true ∧ o.hasOwnFinalizer = true ∧
          written = o.withoutFinalizer (ResourceKind.finalizer S) ∧
          Leads (inquire (logic.cleanUp o)) t' (.done (.ok true))) := by
  cases h with
  | @told _ _ r t _ l =>
    cases r with
    | error e =>
      dsimp only [Program.bind] at l
      split at l <;> cases l
    | ok o =>
      refine ⟨o, t, rfl, ?_⟩
      dsimp only [Program.bind] at l
      split at l
      · cases l
      · cases hd : o.wasDeleted with
        | false =>
          rw [hd] at l
          exact .inl ⟨rfl, update_of_live l⟩
        | true =>
          rw [hd] at l
          exact .inr ⟨rfl, update_of_finalize l⟩

end Pass
end Tenancy
