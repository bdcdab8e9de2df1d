import Tenancy.Proofs.Reconcile.Guard
import Tenancy.Proofs.Reconcile.Pace

/-! Passes that do not come to their own end. What records a failure is part of the pass, so a pass
that is given up when its deadline comes records none: the status of its object is left as it was,
or, if the pass had told its success already, with that. A timeout that a hook reports itself is
recorded like every other failure. -/

namespace Tenancy

variable {S : Type}

namespace Resource

variable {d x : Resource S} {c : Condition} {now : Instant} {e : ReconcileError}

theorem says_of_status (h : d.status = x.status) (hx : x.Says c) : d.Says c := by
  unfold Says condition at hx ⊢
  rwa [h]

/-- The object is not ready because of a failure, and says so. -/
def TellsOf (d : Resource S) (e : ReconcileError) : Prop :=
  ∃ now, d.Says (.failure e.message now) ∧ d.Says (.notReady now)

theorem tellsOf_of_status (h : d.status = x.status) (hx : x.TellsOf e) : d.TellsOf e := by
  obtain ⟨now, failure, notReady⟩ := hx
  exact ⟨now, d.says_of_status h failure, d.says_of_status h notReady⟩

theorem not_tellsOf_of_ready (ready : d.Says (.ready now)) : ¬d.TellsOf e := by
  rintro ⟨_, -, notReady⟩
  unfold Says Condition.agrees at ready notReady
  simp only [Bool.and_eq_true, beq_iff_eq, Condition.ready, Condition.notReady] at ready notReady
  cases ready.1.1.2.symm.trans notReady.1.1.2

end Resource

namespace Site.Answered

variable [ResourceKind S] {h h' : History S} {q : Request S} {r : q.Answer}

theorem apt (answered : Answered h q r h') (keyed : h.store.Keyed) : q.Apt r := by
  have answers : q.Answers h.store r := by cases answered <;> trivial
  exact answers.apt keyed

theorem keyed (answered : Answered h q r h') (keyed : h.store.Keyed) : h'.store.Keyed := by
  cases answered with
  | get | clock | logic => exact keyed
  | update o => exact (Store.turn_write keyed (.update o)).keyed keyed
  | updateStatus o => exact (Store.turn_write keyed (.updateStatus o)).keyed keyed

end Site.Answered

namespace Pass

open Program

def StatusWrite.apply (key : Key) (old : Status) (w : StatusWrite S) : Status :=
  if w.2.isOk ∧ w.1.key = key then w.1.status else old

def StatusWrite.applyAll (key : Key) (old : Status) (ws : List (StatusWrite S)) : Status :=
  ws.foldl (apply key) old

theorem StatusWrite.applyAll_append (key : Key) (old : Status) (ws vs : List (StatusWrite S)) :
    applyAll key old (ws ++ vs) = applyAll key (applyAll key old ws) vs := List.foldl_append

variable [ResourceKind S]

/-- What a pass is told while nobody else changes the object of the key. -/
inductive Alone (key : Key) : History S → Talk S → History S → Prop
  | still (h) : Alone key h [] h
  | told {h h₁ h₂ q r t} (answered : Site.Answered h q r h₁) (rest : Alone key h₁ t h₂) :
    Alone key h (⟨q, r⟩ :: t) h₂
  | others {h h₂ w t} (apart : (h.store.write w).change.map (·.key) ≠ some key)
    (rest : Alone key (h.write w) t h₂) : Alone key h t h₂

variable {logic : Logic S} {guard : Finalizer S} {wait : Span} {key : Key} {o d : Resource S}
  {p : Phase} {e : ReconcileError} {t : Talk S} {h h' : History S} {q : Request S} {r : q.Answer}

/-! ### What is stored -/

theorem stored_of_answered (answered : Site.Answered h q r h') (keyed : h.store.Keyed)
    (stored : h.store.get? key = some d) (unmarked : d.wasDeleted = false) :
    ∃ d', h'.store.get? key = some d' ∧ d'.wasDeleted = false ∧
      d'.status = StatusWrite.applyAll key d.status (statusWrites [⟨q, r⟩]) := by
  cases answered with
  | get | clock | logic => exact ⟨d, stored, unmarked, rfl⟩
  | update u =>
    have touch := (h.store.effect_write (.update u)).touch keyed key
    rw [stored] at touch
    generalize hd : (h.store.write (.update u)).store.get? key = after at touch
    generalize (h.store.write (.update u)).change = c at touch
    cases touch with
    | kept => exact ⟨d, hd, unmarked, rfl⟩
    | updated => exact ⟨_, hd, unmarked, rfl⟩
    | released _ _ marked =>
      have mark : d.wasDeleted = true := Option.isSome_iff_ne_none.2 marked
      cases mark.symm.trans unmarked
  | updateStatus u =>
    have told : StatusWrite.applyAll key d.status
        (statusWrites [⟨.updateStatus u, (h.store.updateStatus u).answer⟩]) =
          if (h.store.updateStatus u).answer.isOk ∧ u.key = key then u.status else d.status := rfl
    have touch := (h.store.effect_write (.updateStatus u)).touch keyed key
    rw [stored] at touch
    rw [told]
    generalize hd : (h.store.write (.updateStatus u)).store.get? key = after at touch
    generalize hc : (h.store.write (.updateStatus u)).change = c at touch
    cases touch with
    | kept elsewhere =>
      refine ⟨d, hd, unmarked, (if_neg ?_).symm⟩
      rintro ⟨ok, rfl⟩
      rw [← Written.isOk_mute] at ok
      exact elsewhere (hc ▸ Store.key_change_of_isOk (w := .updateStatus u) keyed rfl ok)
    | statusUpdated same current =>
      have ok : (h.store.updateStatus u).answer.isOk :=
        Store.isOk_updateStatus_iff.2 ⟨d, same ▸ stored, current⟩
      exact ⟨_, hd, unmarked, (if_pos ⟨ok, same⟩).symm⟩

theorem Alone.stored (alone : Alone key h t h') (keyed : h.store.Keyed)
    (stored : h.store.get? key = some d) (unmarked : d.wasDeleted = false) :
    ∃ d', h'.store.get? key = some d' ∧ d'.wasDeleted = false ∧
      d'.status = StatusWrite.applyAll key d.status (statusWrites t) := by
  induction alone generalizing d with
  | still => exact ⟨d, stored, unmarked, rfl⟩
  | @told h h₁ h₂ q r t answered _ ih =>
    obtain ⟨d₁, stored₁, unmarked₁, status₁⟩ := stored_of_answered answered keyed stored unmarked
    obtain ⟨d₂, stored₂, unmarked₂, status₂⟩ := ih (answered.keyed keyed) stored₁ unmarked₁
    refine ⟨d₂, stored₂, unmarked₂, ?_⟩
    have split : statusWrites (⟨q, r⟩ :: t) = statusWrites [⟨q, r⟩] ++ statusWrites t :=
      statusWrites_append [⟨q, r⟩] t
    rw [status₂, status₁, split, StatusWrite.applyAll_append]
  | @others h _ w _ apart _ ih =>
    have turn := Store.turn_write keyed w
    exact ih (turn.keyed keyed) ((turn.get?_eq apart).trans stored) unmarked

theorem Alone.apt (alone : Alone key h t h') (keyed : h.store.Keyed) :
    ∀ said ∈ t, said.1.Apt said.2 := by
  induction alone with
  | still => exact List.forall_mem_nil _
  | told answered _ ih =>
    exact List.forall_mem_cons.2 ⟨answered.apt keyed, ih (answered.keyed keyed)⟩
  | @others h _ w _ _ _ ih => exact ih ((Store.turn_write keyed w).keyed keyed)

/-! ### What a pass that is given up has written -/

/-- No status was written, or the success of the pass was. -/
def Unfailed (t : Talk S) : Prop :=
  statusWrites t = [] ∨ ∃ x now a, statusWrites t = [(succeeded x now, .ok a)]

omit [ResourceKind S] in
theorem Unfailed.after {u : Talk S} (unfailed : Unfailed u) (none : statusWrites t = []) :
    Unfailed (t ++ u) := by
  unfold Unfailed at unfailed ⊢
  rwa [statusWrites_append, none, List.nil_append]

variable {next : q.Answer → Pass S Outcome}

omit [ResourceKind S] in
theorem leads_advance {s : Step} {f : Phase → Bool → Pass S Outcome}
    (l : Leads (advance p s f) t (.ask q next)) :
    ∃ p' persist, Leads (f p' persist) t (.ask q next) := by
  unfold advance at l
  split at l
  · exact ⟨_, _, l⟩
  · cases l

omit [ResourceKind S] in
theorem statusWrites_inquiring {α : Type} {i : Inquiry α} {f : α → Outcome}
    (l : Leads ((inquire i).bind fun d => .done (f d)) t (.ask q next)) : statusWrites t = [] := by
  rcases leads_bind l with ⟨n, l⟩ | ⟨t₁, t₂, d, rfl, -, l⟩
  · exact statusWrites_inquire l
  · cases l

theorem statusWrites_fail (l : Leads (fail p o e) t (.ask q next)) : statusWrites t = [] := by
  obtain ⟨_, _, l⟩ := leads_advance l
  split at l
  · cases l with
    | here => rfl
    | told l =>
      cases l with
      | here => rfl
      | @told _ _ answer _ _ l => cases answer <;> cases l
  · cases l

theorem unfailed_conclude {persist : Bool}
    (l : Leads (conclude logic p persist o) t (.ask q next)) : Unfailed t := by
  unfold conclude at l
  dsimp only at l
  split at l
  · cases l with
    | here => exact .inl rfl
    | @told _ _ now _ _ l =>
      cases l with
      | here => exact .inl rfl
      | @told _ _ answer t _ l =>
        cases answer with
        | error =>
          obtain ⟨_, _, l⟩ := leads_advance l
          cases l
        | ok a =>
          obtain ⟨_, _, l⟩ := leads_advance l
          have wrote : statusWrites
              (⟨.clock, now⟩ :: ⟨.updateStatus (succeeded o now), .ok a⟩ :: t) =
                (succeeded o now, .ok a) :: statusWrites t := rfl
          rw [statusWrites_inquiring l] at wrote
          exact .inr ⟨o, now, a, wrote⟩
  · obtain ⟨_, _, l⟩ := leads_advance l
    exact .inl (statusWrites_inquiring l)

theorem unfailed_live (l : Leads (live logic guard p o) t (.ask q next)) : Unfailed t := by
  rcases leads_bind l with ⟨n, l⟩ | ⟨t₁, u, ⟨o₁, e | ⟨⟩⟩, rfl, l₁, l⟩
  · exact .inl (statusWrites_amend l)
  · exact .after (.inl (statusWrites_fail l)) (statusWrites_amend l₁)
  refine .after ?_ (statusWrites_amend l₁)
  obtain ⟨_, _, l⟩ := leads_advance l
  rcases leads_bind l with ⟨n, l⟩ | ⟨t₂, u, ⟨o₂, e | ⟨⟩⟩, rfl, l₂, l⟩
  · exact .inl (statusWrites_inquire l)
  · exact .after (.inl (statusWrites_fail l)) (statusWrites_inquire l₂)
  refine .after ?_ (statusWrites_inquire l₂)
  obtain ⟨_, _, l⟩ := leads_advance l
  rcases leads_bind l with ⟨n, l⟩ | ⟨t₃, u, ⟨o₃, e | ⟨⟩⟩, rfl, l₃, l⟩
  · exact .inl (statusWrites_inquire l)
  · exact .after (.inl (statusWrites_fail l)) (statusWrites_inquire l₃)
  obtain ⟨_, _, l⟩ := leads_advance l
  exact .after (unfailed_conclude l) (statusWrites_inquire l₃)

theorem statusWrites_finalize (l : Leads (finalize logic guard wait p o) t (.ask q next)) :
    statusWrites t = [] := by
  rcases leads_bind l with ⟨n, l⟩ | ⟨t₁, u, e | clean, rfl, l₁, l⟩
  · exact statusWrites_inquire l
  · rw [statusWrites_append, statusWrites_inquire l₁, statusWrites_fail l]
    rfl
  rw [statusWrites_append, statusWrites_inquire l₁, List.nil_append]
  cases clean with
  | false =>
    obtain ⟨_, _, l⟩ := leads_advance l
    cases l
  | true =>
    rcases leads_bind l with ⟨n, l⟩ | ⟨t₂, u, ⟨o', e | ⟨⟩⟩, rfl, l₂, l⟩
    · exact statusWrites_amend l
    · rw [statusWrites_append, statusWrites_amend l₂, statusWrites_fail l]
      rfl
    · obtain ⟨_, _, l⟩ := leads_advance l
      rw [statusWrites_append, statusWrites_amend l₂, statusWrites_inquiring l]
      rfl

theorem unfailed_of_run (l : Leads (run logic guard wait key) t (.ask q next)) : Unfailed t := by
  cases l with
  | here => exact .inl rfl
  | @told _ _ answer t _ l =>
    have get (t : Talk S) : statusWrites (⟨.get key, answer⟩ :: t) = statusWrites t := rfl
    unfold Unfailed
    rw [get]
    cases answer with
    | error e =>
      dsimp only [Program.bind] at l
      split at l <;> cases l
    | ok o =>
      dsimp only [Program.bind] at l
      split at l
      · cases l
      · obtain ⟨_, _, l⟩ := leads_advance l
        split at l
        · exact .inl (statusWrites_finalize l)
        · exact unfailed_live l

/-- The status is what it was, or tells of a success; so it tells of no failure but an old one. -/
structure Untold (o d : Resource S) : Prop where
  status : d.status = o.status ∨ ∃ now, d.Says (.success now) ∧ d.Says (.ready now)
  failure : ∀ e, d.TellsOf e → o.TellsOf e

omit [ResourceKind S] in
theorem untold_of_status
    (h : d.status = o.status ∨ ∃ now, d.Says (.success now) ∧ d.Says (.ready now)) :
    Untold o d := by
  refine ⟨h, fun e tells => ?_⟩
  rcases h with same | ⟨now, -, ready⟩
  · exact o.tellsOf_of_status same.symm tells
  · exact absurd tells (d.not_tellsOf_of_ready ready)

theorem Alone.given_up (alone : Alone key h t h') (keyed : h.store.Keyed)
    (stored : h.store.get? key = some o) (unmarked : o.wasDeleted = false)
    (l : Leads (run logic guard wait key) t (.ask q next)) :
    ∃ d, h'.store.get? key = some d ∧ Untold o d := by
  obtain ⟨d, stored', -, status⟩ := alone.stored keyed stored unmarked
  refine ⟨d, stored', untold_of_status ?_⟩
  rcases unfailed_of_run l with none | ⟨x, now, a, once⟩
  · rw [none] at status
    exact .inl status
  · have written : d.status = if (Except.ok a : Except StoreError (Resource S)).isOk ∧
        (succeeded x now).key = key then (succeeded x now).status else o.status := by
      rw [status, once]
      rfl
    split at written
    · obtain ⟨success, ready⟩ := says_succeeded x now
      exact .inr ⟨now, d.says_of_status written success, d.says_of_status written ready⟩
    · exact .inl written

/-! ### A timeout that a hook reports -/

theorem key_of_statusWrite (steady : logic.Steady) {r : Outcome}
    (l : Leads (run logic .inStore wait key) t (.done r)) (apt : ∀ said ∈ t, said.1.Apt said.2)
    {x : Resource S} {answer : Except StoreError (Resource S)}
    (written : (x, answer) ∈ statusWrites t) : x.key = key := by
  have told : ⟨.updateStatus x, answer⟩ ∈ calls t := by
    obtain ⟨⟨q, a⟩, hs, hw⟩ := List.mem_filterMap.1 written
    cases q with
    | updateStatus =>
      cases hw
      exact List.mem_filter.2 ⟨hs, rfl⟩
    | get | update | clock | logic => cases hw
  have apt : ∀ said ∈ calls t, said.1.Apt said.2 := fun said hs => apt said (List.mem_filter.1 hs).1
  obtain ⟨A, B, split⟩ := List.append_of_mem told
  obtain ⟨o, _, g, rfl, held, copies⟩ := (manner_of_run steady l).held split.symm rfl
  cases held
  rw [split] at apt
  have fetched : o.key = key := apt ⟨.get key, .ok o⟩ (by simp) o rfl
  rcases copies with ⟨copies, -⟩ | ⟨-, n, copies, rfl⟩
  · exact copies.1.trans fetched
  · have updated : n.key = (o.withFinalizer _).key :=
      (apt ⟨.update (o.withFinalizer (ResourceKind.finalizer S)), .ok n⟩ (by simp) n rfl).1
    exact copies.1.trans (updated.trans ((o.key_withFinalizer _).trans fetched))

theorem recorded_of_timeout {limit : Span} {r : Outcome} (hr : r = .error (.timeout limit))
    (l : Leads (run logic guard wait key) t (.done r)) :
    ∃ x now a, statusWrites t = [(failed x (.timeout limit) now, .ok a)] := by
  have store (e : StoreError) : ReconcileError.ofStore e ≠ .timeout limit := by
    cases e <;> simp [ReconcileError.ofStore]
  obtain ⟨c, takes⟩ := takes_of_run l
  have once := takes.once
  cases takes with
  | vanished | misfit | pending | released | unwritten | converged => cases hr
  | unread => exact absurd (Except.error.inj hr) (store _)
  | broken _ _ records =>
    cases records with
    | stale conflict =>
      cases hr
      cases conflict
    | recorded _ now answer =>
      cases answer with
      | error => cases hr
      | ok a =>
        cases hr
        exact ⟨_, now, a, once⟩

theorem Alone.timed_out (alone : Alone key h t h') (keyed : h.store.Keyed)
    (stored : h.store.get? key = some o) (unmarked : o.wasDeleted = false) (steady : logic.Steady)
    {limit : Span} (l : Leads (run logic .inStore wait key) t (.done (.error (.timeout limit)))) :
    ∃ d, h'.store.get? key = some d ∧ d.TellsOf (.timeout limit) := by
  obtain ⟨d, stored', -, status⟩ := alone.stored keyed stored unmarked
  obtain ⟨x, now, a, once⟩ := recorded_of_timeout rfl l
  have key := key_of_statusWrite steady l (alone.apt keyed) (once ▸ List.mem_singleton_self _)
  have written : d.status = (failed x (.timeout limit) now).status := by
    rw [status, once]
    exact if_pos ⟨rfl, key⟩
  have tells : (failed x (.timeout limit) now).TellsOf (.timeout limit) :=
    ⟨now, says_failed x (.timeout limit) now⟩
  exact ⟨d, stored', d.tellsOf_of_status written tells⟩

end Pass
end Tenancy
