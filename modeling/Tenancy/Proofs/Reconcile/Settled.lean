import Tenancy.Proofs.Reconcile.Visit

/-! What a pass leaves that ends well. It has told the status of the object that it fetched, with
what the logic worked out from the specification; and that is stored until the object is written
again, whatever happens to others. -/

namespace Tenancy

variable {S : Type} [ResourceKind S]

/-! ### Writes to other objects -/

/-- After the first writes, the others are to other objects or are refused. -/
def History.Spares (key : Key) (ws vs : List (Write S)) : Prop :=
  ∀ us w rest, vs = us ++ w :: rest →
    w.key ≠ key ∨ ((after (ws ++ us)).store.write w).answer.isOk = false

theorem History.Spares.get?_eq {key : Key} {ws vs : List (Write S)} (spares : Spares key ws vs) :
    (after (ws ++ vs)).store.get? key = (after ws).store.get? key := by
  induction vs using List.reverseRecOn with
  | nil => rw [List.append_nil]
  | append_singleton vs w ih =>
    have before : Spares key ws vs := fun us v rest h =>
      spares us v (rest ++ [w]) (by rw [h, List.append_assoc]; rfl)
    rw [← List.append_assoc, after_concat, ← ih before]
    rcases spares vs w [] rfl with other | refused
    · exact Store.get?_write_of_ne (keyed_after (ws ++ vs)) other
    · exact congrArg (·.get? key) (Store.store_of_refused refused)

/-! ### Passes that end well -/

namespace Pass

open Program

theorem Manner.update_of_unmarked {key : Key} {x u : Resource S} {C : Talk S} {r : Outcome}
    {a : Except StoreError (Resource S)} (h : Manner key (⟨.get key, .ok x⟩ :: C) r)
    (unmarked : x.wasDeleted = false) (updated : ⟨.update u, a⟩ ∈ C) :
    u = x.withFinalizer (ResourceKind.finalizer S) := by
  rcases h.of_unmarked unmarked with rfl | ⟨b, g, s, rfl, guards, closes⟩
  · cases updated
  rcases List.mem_append.1 updated with updated | updated
  · obtain ⟨A, B, hg⟩ := List.append_of_mem updated
    cases guards.updates hg.symm
    rfl
  · cases closes with
    | stale => cases updated
    | told => simp at updated

variable {apply : Resource S → Inquiry (Hooked S)} {wait : Span} {key : Key} {x o o' : Resource S}
  {t : Talk S} {r : Outcome} {d : Option Span}

theorem add_done (l : Leads (amend (Finalizer.addInStore o)) t (.done (o', .ok ()))) :
    o' = o ∨ ⟨.update (o.withFinalizer (ResourceKind.finalizer S)), .ok o'⟩ ∈ t := by
  rw [Finalizer.addInStore_eq] at l
  split at l
  · cases l
    exact .inl rfl
  · cases l with
    | @told _ _ answer _ _ l =>
      cases answer with
      | error => cases l
      | ok =>
        cases l
        exact .inr List.mem_cons_self

theorem told_of_ok (l : Leads (run (.paced apply) .inStore wait key) t (.done r)) (ok : r = .ok d)
    (first : t.head? = some ⟨.get key, .ok x⟩) (unmarked : x.wasDeleted = false) :
    ∃ o o' u now a, (o = x ∨ ⟨.update (x.withFinalizer (ResourceKind.finalizer S)), .ok o⟩ ∈ t) ∧
      Leads (inquire (apply o.withObserved)) u (.done (o', .ok ())) ∧ u ⊆ t ∧
      ⟨.updateStatus (succeeded o' now), .ok a⟩ ∈ t := by
  obtain ⟨c, takes⟩ := takes_of_run l
  cases takes with
  | vanished => cases first
  | unread | misfit | unwritten => cases ok
  | broken _ _ records =>
    cases records with
    | stale => cases ok
    | recorded _ _ answer => cases answer <;> cases ok
  | pending reaches | released reaches =>
    cases reaches with
    | deleting _ mark =>
      cases first
      cases mark.symm.trans unmarked
  | @converged o' ss t v a d reaches now =>
    cases reaches with
    | @applied o₂ _ _ t u reaches applied =>
      cases reaches with
      | @prepared o₁ _ _ t _ reaches prepared =>
        cases prepared
        cases reaches with
        | @guarded _ _ _ _ g reaches guarded =>
          cases reaches with
          | live =>
            cases first
            refine ⟨o₁, o', u, now, a, ?_, applied, fun said h => by simp [h], by simp⟩
            exact (add_done guarded).imp_right fun h => by simp [h]

end Pass

namespace Visit

variable {logic : Logic S} {apply : Resource S → Inquiry (Hooked S)} {wait : Span} {key : Key}
  {ws : List (Write S)} {es : List (Event S)} {r : Outcome} {x : Resource S}

theorem first (visit : Visit logic wait key ws es r) (steady : logic.Steady)
    (fetched : .told (.get key) (.ok x) ∈ es) :
    (es.filterMap Event.said?).head? = some ⟨.get key, .ok x⟩ := by
  have asks := visit.asks
  have manner := Pass.manner_of_run steady asks
  have said : ⟨.get key, .ok x⟩ ∈ Pass.calls (es.filterMap Event.said?) := by
    rw [Event.calls_said]
    exact mem_calls fetched rfl
  generalize es.filterMap Event.said? = t at asks manner said ⊢
  obtain ⟨C, hC, -⟩ := manner.fetch_unique said
  cases asks with
  | told =>
    cases hC
    rfl

theorem spec_of_receipt (visit : Visit logic wait key ws es r) (steady : logic.Steady)
    (fetched : .told (.get key) (.ok x) ∈ es) (unmarked : x.wasDeleted = false) {e : Event S}
    {b : Resource S} (he : e ∈ es) (receipt : e.receipt? = some b) :
    b.key = key ∧ b.spec = x.spec := by
  have key_x : x.key = key := by
    obtain ⟨P, later, split⟩ := List.append_of_mem fetched
    exact keyed ws _ key x (visit.stored_of_get split)
  have manner := visit.manner steady
  obtain ⟨C, hC, others⟩ := manner.fetch_unique (mem_calls fetched rfl)
  rw [hC] at manner
  cases e with
  | client => cases receipt
  | told q a =>
    cases q with
    | updateStatus | clock | logic => cases receipt
    | get k =>
      have call := mem_calls he rfl
      rw [hC] at call
      rcases List.mem_cons.1 call with same | other
      · cases same
        cases receipt
        exact ⟨key_x, rfl⟩
      · exact absurd rfl (others _ other k)
    | update u =>
      cases a with
      | error => cases receipt
      | ok n =>
        cases receipt
        have call := mem_calls he rfl
        rw [hC] at call
        obtain ⟨P, later, split⟩ := List.append_of_mem he
        obtain ⟨key_b, spec_b⟩ := Store.update_answer (visit.answer_of_update split)
        obtain rfl := manner.update_of_unmarked unmarked ((List.mem_cons.1 call).resolve_left nofun)
        exact ⟨key_b.trans ((x.key_withFinalizer _).trans key_x), spec_b⟩

theorem spec_of_accepted (visit : Visit logic wait key ws es r) (steady : logic.Steady)
    (fetched : .told (.get key) (.ok x) ∈ es) (unmarked : x.wasDeleted = false)
    {before after : List (Event S)} {y a c : Resource S}
    (split : es = before ++ .told (.updateStatus y) (.ok a) :: after)
    (stored : (storeAfter ws before).get? y.key = some c) : c.spec = x.spec := by
  obtain ⟨_, b, _, P, R, received, hx, copies⟩ := visit.held steady split (w := .updateStatus y) rfl
  cases hx
  have accepted : ((storeAfter ws before).updateStatus y).answer.isOk :=
    visit.answer_of_updateStatus split ▸ rfl
  obtain ⟨d, hd, version⟩ := Store.isOk_updateStatus_iff.1 accepted
  cases stored.symm.trans hd
  have current := visit.current_of_version ⟨R, received.split.symm⟩ ⟨_, split.symm⟩ received.stored
    stored (version.symm.trans copies.2)
  obtain ⟨P', e, rfl, receipt⟩ := received.last
  have he : e ∈ es := by
    rw [split, received.split]
    simp
  have key_b := keyed ws _ key b received.stored
  rw [copies.1, key_b] at stored
  cases stored.symm.trans current
  exact (visit.spec_of_receipt steady fetched unmarked he receipt).2

omit [ResourceKind S] in
theorem mem_of_said {q : Request S} {a : q.Answer} (h : ⟨q, a⟩ ∈ es.filterMap Event.said?) :
    .told q a ∈ es := by
  obtain ⟨e, he, said⟩ := List.mem_filterMap.1 h
  cases e with
  | client => cases said
  | told =>
    cases said
    exact he

/-- A visit to an unmarked object that ends well has applied the logic to the object as it fetched
it, and has told the status that this left. -/
theorem told_status (visit : Visit (.paced apply) wait key ws es r)
    (steady : (Logic.paced apply).Steady) {d : Option Span} (ok : r = .ok d)
    (fetched : .told (.get key) (.ok x) ∈ es) (unmarked : x.wasDeleted = false) :
    ∃ o o' u before y a after p, o.key = key ∧ o.spec = x.spec ∧
      Program.Leads (Pass.inquire (apply o)) u (.done (o', .ok ())) ∧
      (∀ q a, ⟨q, a⟩ ∈ u → .told q a ∈ es) ∧
      es = before ++ .told (.updateStatus y) (.ok a) :: after ∧
      (storeAfter ws (before ++ [.told (.updateStatus y) (.ok a)])).get? key = some p ∧
      p.spec = x.spec ∧ p.status.observed = o'.status.observed := by
  have first := visit.first steady fetched
  obtain ⟨o, o', u, now, a, hand, applied, asked, told⟩ :=
    Pass.told_of_ok visit.asks ok first unmarked
  have own : o.key = key ∧ o.spec = x.spec := by
    rcases hand with rfl | updated
    · exact visit.spec_of_receipt steady fetched unmarked fetched rfl
    · exact visit.spec_of_receipt steady fetched unmarked (mem_of_said updated) rfl
  have key_y : (Pass.succeeded o' now).key = key :=
    (steady.apply _ _ _ _ applied).1.trans (o.key_withObserved.trans own.1)
  obtain ⟨before, after, split⟩ := List.append_of_mem (mem_of_said told)
  obtain ⟨c, stored, written⟩ :=
    Store.get?_updateStatus (keyed ws before) (visit.answer_of_updateStatus split)
  have spec := visit.spec_of_accepted steady fetched unmarked split stored
  rw [key_y] at written
  have stands := storeAfter_write ws before (e := .told (.updateStatus _) (.ok a)) rfl ▸ written
  exact ⟨o.withObserved, o', u, before, _, a, after, _, o.key_withObserved.trans own.1,
    o.spec_withObserved.trans own.2, applied, fun q a h => mem_of_said (asked h), split, stands,
    spec, rfl⟩

end Visit

/-- A visit to an unmarked object that ended well, and further writes. Nobody has written the object
since the visit told its status; `s` is the store then. -/
structure Settled (logic : Logic S) (wait : Span) (key : Key) (ws : List (Write S))
    (es : List (Event S)) (vs : List (Write S)) (x : Resource S) (s : Store S) : Prop where
  visit : ∃ d, Visit logic wait key ws es (.ok d)
  fetched : .told (.get key) (.ok x) ∈ es
  unmarked : x.wasDeleted = false
  untouched : ∀ before y a after, es = before ++ .told (.updateStatus y) a :: after →
    History.Spares key (ws ++ (before ++ [.told (.updateStatus y) a]).filterMap Event.write?)
      (after.filterMap Event.write? ++ vs)
  store : s = (History.after (ws ++ es.filterMap Event.write? ++ vs)).store

theorem Settled.stored {apply : Resource S → Inquiry (Hooked S)} {wait : Span} {key : Key}
    {ws vs : List (Write S)} {es : List (Event S)} {x : Resource S} {s : Store S}
    (settled : Settled (.paced apply) wait key ws es vs x s)
    (steady : (Logic.paced apply).Steady) :
    ∃ o o' u p, o.key = key ∧ o.spec = x.spec ∧
      Program.Leads (Pass.inquire (apply o)) u (.done (o', .ok ())) ∧
      (∀ q a, ⟨q, a⟩ ∈ u → .told q a ∈ es) ∧
      s.get? key = some p ∧ p.spec = x.spec ∧ p.status.observed = o'.status.observed := by
  obtain ⟨d, visit⟩ := settled.visit
  obtain ⟨o, o', u, before, y, a, after, p, hk, spec, applied, asked, split, stored, spec_p,
    observed⟩ := visit.told_status steady rfl settled.fetched settled.unmarked
  refine ⟨o, o', u, p, hk, spec, applied, asked, ?_, spec_p, observed⟩
  have spared := (settled.untouched _ _ _ _ split).get?_eq
  rw [settled.store, ← stored, split, List.append_cons before, List.filterMap_append]
  simpa only [storeAfter, List.append_assoc] using spared

end Tenancy
