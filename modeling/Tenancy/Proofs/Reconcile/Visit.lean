import Mathlib.Data.List.Infix
import Tenancy.Proofs.Reconcile.Guard
import Tenancy.Proofs.Reconcile.Manner

/-! A pass while clients write to its store. The store accepts a write of the pass only if nobody
else has changed the object since the pass received it, so a pass that was disturbed leaves what the
others have written, and says that its object is stale or gone. -/

namespace Tenancy

variable {S : Type}

inductive Event (S : Type) where
  | client (w : Write S)
  | told (q : Request S) (answer : q.Answer)

namespace Event

def write? : Event S → Option (Write S)
  | client w => some w
  | told q _ => q.write?

def said? : Event S → Option (Σ q : Request S, q.Answer)
  | client _ => none
  | told q answer => some ⟨q, answer⟩

def call? (e : Event S) : Option (Σ q : Request S, q.Answer) :=
  e.said?.filter fun said => said.1.isCall

def receipt? (e : Event S) : Option (Resource S) := e.said?.bind Pass.receipt?

def attempt? : Event S → Option (Write S × Bool)
  | told (.update o) answer => some (.update o, answer.isOk)
  | told (.updateStatus o) answer => some (.updateStatus o, answer.isOk)
  | client _ | told (.get _) _ | told .clock _ | told (.logic _) _ => none

theorem calls_said (es : List (Event S)) :
    Pass.calls (es.filterMap said?) = es.filterMap call? := List.filter_filterMap ..

theorem eq_told {e : Event S} {said : Σ q : Request S, q.Answer} (h : e.call? = some said) :
    e = told said.1 said.2 := by
  cases e with
  | client => cases h
  | told q answer =>
    have said' := (Option.filter_eq_some_iff.1 h).1
    cases said'
    rfl

theorem receipt?_eq_none {e : Event S}
    (h : ∀ said, e.call? = some said → Pass.receipt? said = none) : e.receipt? = none := by
  cases e with
  | client => rfl
  | told q answer =>
    cases q with
    | get | update | updateStatus => exact h _ rfl
    | clock | logic => rfl

end Event

variable [ResourceKind S]

/-- The store to which some clients have written, after some events. -/
def storeAfter (ws : List (Write S)) (es : List (Event S)) : Store S :=
  (History.after (ws ++ es.filterMap Event.write?)).store

/-- A pass that is told what the store has at the time, and that comes to an end. The store does not
run out of versions meanwhile. -/
structure Visit (logic : Logic S) (wait : Span) (key : Key) (ws : List (Write S))
    (es : List (Event S)) (r : Outcome) : Prop where
  asks : Program.Leads (Pass.run logic .inStore wait key) (es.filterMap Event.said?) (.done r)
  answered : ∀ before q answer later, es = before ++ .told q answer :: later →
    ∃ h, Site.Answered (.after (ws ++ before.filterMap Event.write?)) q answer h
  room : (History.after (ws ++ es.filterMap Event.write?)).log.length < 2 ^ 64

/-! ### Writes that are refused, and writes that are not -/

namespace Store

variable {s : Store S} {w : Write S} {c o : Resource S} {key : Key}

theorem key_change_of_delete (keyed : s.Keyed) (stored : s.get? key = some c)
    (unmarked : c.wasDeleted = false) (now : Instant) :
    (s.delete now key).change.map (·.key) = some key := by
  have hc := keyed key c stored
  have effect := s.effect_delete now key
  generalize (s.delete now key).change = d at effect
  generalize (s.delete now key).store = t at effect
  cases effect with
  | stale held => cases held
  | missing absent => cases absent.symm.trans stored
  | pending stored' _ marked =>
    cases stored'.symm.trans stored
    have mark : c.wasDeleted = true := Option.isSome_iff_ne_none.2 marked
    cases mark.symm.trans unmarked
  | marked stored' | deleted stored' =>
    cases stored'.symm.trans stored
    exact congrArg some hc

theorem key_change_of_unmarked (keyed : s.Keyed) (stored : s.get? w.key = some c)
    (unmarked : c.wasDeleted = false) (ok : (s.write w).answer.isOk) :
    (s.write w).change.map (·.key) = some w.key := by
  cases w with
  | create uid x =>
    rw [write, Written.isOk_mute, refused_create stored] at ok
    cases ok
  | delete now key => exact key_change_of_delete keyed stored unmarked now
  | update | updateStatus => exact key_change_of_isOk keyed rfl ok

theorem held_eq_error {e : StoreError} (h : s.held o = .error e) :
    s.get? o.key = none ∧ e.isNotFound = true ∧ (ReconcileError.ofStore e).isNotFound = true ∨
      (∃ c, s.get? o.key = some c) ∧ e.isNotFound = false ∧
        (ReconcileError.ofStore e).isConflict = true := by
  unfold held at h
  cases hc : s.get? o.key with
  | none =>
    rw [hc] at h
    cases h
    exact .inl ⟨rfl, rfl, rfl⟩
  | some c =>
    rw [hc] at h
    dsimp only at h
    split at h
    · cases h
    · cases h
      exact .inr ⟨⟨c, rfl⟩, rfl, rfl⟩

theorem update_eq_error {e : StoreError} (h : (s.update o).answer = .error e) :
    s.held o = .error e := by
  unfold update at h
  split at h
  · rename_i held
    cases h
    exact held
  · dsimp only at h
    split at h <;> cases h

theorem updateStatus_eq_error {e : StoreError} (h : (s.updateStatus o).answer = .error e) :
    s.held o = .error e := by
  unfold updateStatus at h
  split at h
  · rename_i held
    cases h
    exact held
  · cases h

theorem get?_update {n : Resource S} (h : (s.update o).answer = .ok n)
    (guarded : o.metadata.finalizers ≠ []) :
    ∃ c, s.get? o.key = some c ∧ o.version = c.version ∧ n.metadata.uid = c.metadata.uid ∧
      n.metadata.deletedAt = c.metadata.deletedAt ∧ (s.update o).store.get? o.key = some n := by
  unfold update at h ⊢
  split at h
  · cases h
  · rename_i c held
    obtain ⟨stored, current⟩ := held_eq_ok.1 held
    have stays : ((revise c o).wasDeleted && (revise c o).metadata.finalizers.isEmpty) = false := by
      rw [Bool.and_eq_false_iff]
      exact .inr (by simpa [revise] using guarded)
    dsimp only at h ⊢
    rw [stays] at h ⊢
    cases h
    exact ⟨c, stored, current, rfl, rfl, get?_put_self s (s.draw (revise c o))⟩

end Store

/-! ### What is stored during a visit -/

namespace Visit

variable {logic : Logic S} {wait : Span} {key : Key} {ws : List (Write S)} {es : List (Event S)}
  {r : Outcome}

theorem storeAfter_write (ws : List (Write S)) (es : List (Event S)) {e : Event S} {w : Write S}
    (he : e.write? = some w) : storeAfter ws (es ++ [e]) = ((storeAfter ws es).write w).store := by
  unfold storeAfter
  rw [List.filterMap_append, ← List.append_assoc, List.filterMap_cons, he]
  exact congrArg History.store (History.after_concat _ w)

theorem storeAfter_quiet (ws : List (Write S)) (es : List (Event S)) {e : Event S}
    (he : e.write? = none) : storeAfter ws (es ++ [e]) = storeAfter ws es := by
  unfold storeAfter
  rw [List.filterMap_append, List.filterMap_cons, he, List.filterMap_nil, List.append_nil]

theorem keyed (ws : List (Write S)) (es : List (Event S)) : (storeAfter ws es).Keyed :=
  History.keyed_after _

variable {P Q : List (Event S)} {b : Resource S} {w : Write S}

theorem room_of_prefix (visit : Visit logic wait key ws es r) (hP : P <+: es) :
    (History.after (ws ++ P.filterMap Event.write?)).log.length < 2 ^ 64 := by
  obtain ⟨R, rfl⟩ := hP
  have room := visit.room
  rw [List.filterMap_append, ← List.append_assoc] at room
  exact (History.log_length_mono _ _).trans_lt room

theorem current_or_retired (visit : Visit logic wait key ws es r) (hP : P <+: Q) (hQ : Q <+: es)
    (stored : (storeAfter ws P).get? key = some b) :
    (storeAfter ws Q).get? key = some b ∨ Store.Retired b.version (storeAfter ws Q) := by
  have room := visit.room_of_prefix hQ
  obtain ⟨R, rfl⟩ := hP
  unfold storeAfter at stored ⊢
  rw [List.filterMap_append, ← List.append_assoc] at room ⊢
  exact History.current_or_retired_append room stored

theorem retired (visit : Visit logic wait key ws es r) (hP : P <+: Q) (hQ : Q <+: es) {v : UInt64}
    (h : Store.Retired v (storeAfter ws P)) : Store.Retired v (storeAfter ws Q) := by
  have room := visit.room_of_prefix hQ
  obtain ⟨R, rfl⟩ := hP
  unfold storeAfter at h ⊢
  rw [List.filterMap_append, ← List.append_assoc] at room ⊢
  exact History.retired_append room h

theorem retired_of_change (visit : Visit logic wait key ws es r) (hP : P <+: Q)
    (hQ : Q ++ [.client w] <+: es) (stored : (storeAfter ws P).get? key = some b)
    (change : ((storeAfter ws Q).write w).change.map (·.key) = some key) :
    Store.Retired b.version (storeAfter ws (Q ++ [.client w])) := by
  have hQ' : Q <+: es := (List.prefix_append ..).trans hQ
  rcases visit.current_or_retired hP hQ' stored with current | retired
  · have room := visit.room_of_prefix hQ
    unfold storeAfter at current change ⊢
    rw [List.filterMap_append, ← List.append_assoc] at room ⊢
    exact History.retired_of_change room current change
  · exact visit.retired (List.prefix_append ..) hQ retired

theorem stored_of_get (visit : Visit logic wait key ws es r) {o : Resource S}
    {later : List (Event S)} (hes : es = P ++ .told (.get key) (.ok o) :: later) :
    (storeAfter ws (P ++ [.told (.get key) (.ok o)])).get? key = some o := by
  obtain ⟨h, answered⟩ := visit.answered _ _ _ _ hes
  rw [storeAfter_quiet ws P rfl]
  exact Store.get_eq_ok.1 answered.get_eq.symm

theorem answer_of_update (visit : Visit logic wait key ws es r) {o : Resource S}
    {a : Except StoreError (Resource S)} {later : List (Event S)}
    (hes : es = P ++ .told (.update o) a :: later) : ((storeAfter ws P).update o).answer = a := by
  obtain ⟨h, answered⟩ := visit.answered _ _ _ _ hes
  cases answered
  rfl

theorem answer_of_updateStatus (visit : Visit logic wait key ws es r) {o : Resource S}
    {a : Except StoreError (Resource S)} {later : List (Event S)}
    (hes : es = P ++ .told (.updateStatus o) a :: later) :
    ((storeAfter ws P).updateStatus o).answer = a := by
  obtain ⟨h, answered⟩ := visit.answered _ _ _ _ hes
  cases answered
  rfl

theorem current_of_version (visit : Visit logic wait key ws es r) (hP : P <+: Q) (hQ : Q <+: es)
    (stored : (storeAfter ws P).get? key = some b) {k : Key} {c : Resource S}
    (hc : (storeAfter ws Q).get? k = some c) (version : c.version = b.version) :
    (storeAfter ws Q).get? key = some b := by
  rcases visit.current_or_retired hP hQ stored with current | retired
  · exact current
  · exact absurd version (retired.ne k c hc)

/-- Of all events so far the first ones end with the last receipt of the pass. What it received is
stored then, and is what the pass has fetched or has made of it itself. -/
structure Received (key : Key) (ws : List (Write S)) (Q : List (Event S)) (o b : Resource S)
    (P R : List (Event S)) : Prop where
  split : Q = P ++ R
  last : ∃ P' e, P = P' ++ [e] ∧ e.receipt? = some b
  quiet : ∀ e ∈ R, e.receipt? = none
  fetched : .told (.get key) (.ok o) ∈ P
  stored : (storeAfter ws P).get? key = some b
  uid : b.metadata.uid = o.metadata.uid
  mark : b.metadata.deletedAt = o.metadata.deletedAt

theorem received_of_fetch (visit : Visit logic wait key ws es r) {o : Resource S}
    {R later : List (Event S)} (hes : es = P ++ .told (.get key) (.ok o) :: R ++ later)
    (quiet : ∀ said ∈ R.filterMap Event.call?, Pass.receipt? said = none) :
    Received key ws (P ++ .told (.get key) (.ok o) :: R) o o
      (P ++ [.told (.get key) (.ok o)]) R where
  split := List.append_cons ..
  last := ⟨P, _, rfl, rfl⟩
  quiet e he := Event.receipt?_eq_none fun said hs => quiet said (List.mem_filterMap.2 ⟨e, he, hs⟩)
  fetched := by simp
  stored := visit.stored_of_get (hes.trans (List.append_assoc ..))
  uid := rfl
  mark := rfl

theorem received_of_update (visit : Visit logic wait key ws es r) {o u n : Resource S}
    {A R later : List (Event S)} (hes : es = A ++ .told (.update u) (.ok n) :: R ++ later)
    (hA : P <+: A) (fetched : .told (.get key) (.ok o) ∈ P)
    (stored : (storeAfter ws P).get? key = some o) (copies : u.Copies o)
    (guarded : u.metadata.finalizers ≠ []) (quiet : R.filterMap Event.call? = []) :
    Received key ws (A ++ .told (.update u) (.ok n) :: R) o n
      (A ++ [.told (.update u) (.ok n)]) R := by
  have hes' := hes.trans (List.append_assoc ..)
  obtain ⟨c, hc, version, uid, mark, stored'⟩ :=
    Store.get?_update (visit.answer_of_update hes') guarded
  have current := visit.current_of_version hA ⟨_, hes'.symm⟩ stored hc
    (version.symm.trans copies.2)
  rw [copies.1.trans (keyed ws P key o stored)] at hc stored'
  cases hc.symm.trans current
  refine ⟨List.append_cons .., ⟨A, _, rfl, rfl⟩, fun e he => ?_, ?_, ?_, uid, mark⟩
  · refine Event.receipt?_eq_none fun said hs => ?_
    have hR := List.mem_filterMap.2 ⟨e, he, hs⟩
    rw [quiet] at hR
    cases hR
  · exact List.mem_append_left _ (hA.subset fetched)
  · rw [storeAfter_write ws A (w := .update u) rfl]
    exact stored'

theorem held (visit : Visit logic wait key ws es r) (steady : logic.Steady) {q : Request S}
    {a : q.Answer} {later : List (Event S)} (hes : es = Q ++ .told q a :: later)
    (hw : q.write? = some w) :
    ∃ o b x P R, Received key ws Q o b P R ∧ w.held? = some x ∧ x.Copies b := by
  have manner := Pass.manner_of_run steady visit.asks
  rw [Event.calls_said] at manner
  have call : (Event.told q a).call? = some ⟨q, a⟩ := by
    cases q <;> first | rfl | cases hw
  have split : Q.filterMap Event.call? ++ ⟨q, a⟩ :: later.filterMap Event.call? =
      es.filterMap Event.call? := by
    rw [hes, List.filterMap_append, List.filterMap_cons, call]
  obtain ⟨o, x, g, hQ, hx, known⟩ := manner.held split hw
  obtain ⟨P, e, R, rfl, -, he, hR⟩ := List.filterMap_eq_cons_iff.1 hQ
  obtain rfl := Event.eq_told he
  rcases known with ⟨copies, none⟩ | ⟨mark, n, copies, rfl⟩
  · exact ⟨o, o, x, _, R, visit.received_of_fetch hes (hR ▸ none), hx, copies⟩
  · obtain ⟨P', e', R', rfl, -, he', hR'⟩ := List.filterMap_eq_cons_iff.1 hR
    obtain rfl := Event.eq_told he'
    have fetch := hes.trans (List.append_assoc ..)
    have guarded := List.ne_nil_of_mem (o.mem_withFinalizer (ResourceKind.finalizer S))
    have regroup (e e' : Event S) :
        P ++ e :: (P' ++ e' :: R') = P ++ [e] ++ P' ++ e' :: R' := by simp
    rw [regroup] at hes ⊢
    exact ⟨o, n, x, _, R', visit.received_of_update hes (List.prefix_append ..) (by simp)
      (visit.stored_of_get fetch) (.withFinalizer o _) guarded hR', hx, copies⟩

/-! ### After a disturbance -/

omit [ResourceKind S] in
theorem eq_told_of_attempt {e : Event S} {ok : Bool} (he : e.attempt? = some (w, ok)) :
    ∃ q a, e = .told q a ∧ q.write? = some w := by
  cases e with
  | client => cases he
  | told q a =>
    cases q with
    | get | clock | logic => cases he
    | update | updateStatus =>
      cases he
      exact ⟨_, _, rfl, rfl⟩

theorem attempt_isOk (visit : Visit logic wait key ws es r) {e : Event S} {ok : Bool}
    {later : List (Event S)} (hes : es = Q ++ e :: later) (he : e.attempt? = some (w, ok)) :
    ((storeAfter ws Q).write w).answer.isOk = ok := by
  obtain ⟨q, a, rfl, hw⟩ := eq_told_of_attempt he
  cases q with
  | get | clock | logic => cases hw
  | update o =>
    cases he
    rw [Store.write, Written.isOk_mute, visit.answer_of_update hes]
  | updateStatus o =>
    cases he
    rw [Store.write, Written.isOk_mute, visit.answer_of_updateStatus hes]

variable {o : Resource S} {v : Write S} {before later : List (Event S)}

/-- The client changes the object: an unmarked one by every write that is accepted. -/
def Disturbs (key : Key) (s : Store S) (o : Resource S) (v : Write S) : Prop :=
  o.wasDeleted = false ∧ v.key = key ∧ (s.write v).answer.isOk = true ∨
    (s.write v).change.map (·.key) = some key

theorem retired_of_disturbed (visit : Visit logic wait key ws es r)
    (hes : es = before ++ .client v :: later) (hP : P <+: before)
    (stored : (storeAfter ws P).get? key = some b)
    (mark : b.metadata.deletedAt = o.metadata.deletedAt)
    (disturbs : Disturbs key (storeAfter ws before) o v) :
    Store.Retired b.version (storeAfter ws (before ++ [.client v])) := by
  have hQ : before ++ [.client v] <+: es := ⟨later, by rw [hes, List.append_assoc]; rfl⟩
  rcases disturbs with ⟨unmarked, rfl, ok⟩ | change
  · have hQ' := (List.prefix_append ..).trans hQ
    rcases visit.current_or_retired hP hQ' stored with current | retired
    · have unmarked : b.wasDeleted = false := (congrArg Option.isSome mark).trans unmarked
      have change := Store.key_change_of_unmarked (keyed ws before) current unmarked ok
      exact visit.retired_of_change hP hQ stored change
    · exact visit.retired (List.prefix_append ..) hQ retired
  · exact visit.retired_of_change hP hQ stored change

theorem Received.prefix_before {o' : Resource S} {m R : List (Event S)}
    (received : Received key ws (before ++ .client v :: m) o' b P R)
    (quiet : ∀ e ∈ m, e.receipt? = none) : P <+: before := by
  obtain ⟨P', e, rfl, he⟩ := received.last
  have split := received.split
  rw [List.append_assoc, List.singleton_append] at split
  rcases Pass.split_append split.symm with ⟨E, rfl, -⟩ | ⟨E, rfl, hE⟩
  · exact ⟨E, by rw [List.append_assoc]; rfl⟩
  · have hm : e ∈ Event.client v :: m := hE ▸ by simp
    rcases List.mem_cons.1 hm with rfl | hm
    · cases he
    · cases (quiet e hm).symm.trans he

omit [ResourceKind S] in
theorem of_receipt {e : Event S} (he : e.receipt? ≠ none) :
    (∃ k a, e = .told (.get k) a) ∨ ∃ u, e.attempt? = some (.update u, true) := by
  cases e with
  | client => exact absurd rfl he
  | told q a =>
    cases q with
    | get k => exact .inl ⟨k, a, rfl⟩
    | updateStatus | clock | logic => exact absurd rfl he
    | update u =>
      cases a with
      | error => exact absurd rfl he
      | ok n => exact .inr ⟨u, rfl⟩

omit [ResourceKind S] in
theorem mem_calls {q : Request S} {a : q.Answer} (h : .told q a ∈ es) (call : q.isCall = true) :
    ⟨q, a⟩ ∈ es.filterMap Event.call? := by
  refine List.mem_filterMap.2 ⟨_, h, ?_⟩
  simp [Event.call?, Event.said?, call]

omit [ResourceKind S] in
theorem mem_of_mem_calls {q : Request S} {a : q.Answer} (h : ⟨q, a⟩ ∈ es.filterMap Event.call?) :
    .told q a ∈ es := by
  obtain ⟨e, he, call⟩ := List.mem_filterMap.1 h
  rwa [Event.eq_told call] at he

theorem manner (visit : Visit logic wait key ws es r) (steady : logic.Steady) :
    Pass.Manner key (es.filterMap Event.call?) r := by
  have manner := Pass.manner_of_run steady visit.asks
  rwa [Event.calls_said] at manner

theorem split_at (visit : Visit logic wait key ws es r) (steady : logic.Steady)
    (hes : es = before ++ later) (fetched : .told (.get key) (.ok o) ∈ before) :
    ∃ g, before.filterMap Event.call? = ⟨.get key, .ok o⟩ :: g ∧
      (∀ said ∈ g ++ later.filterMap Event.call?, ∀ k, said.1 ≠ .get k) ∧
      Pass.Manner key (⟨.get key, .ok o⟩ :: (g ++ later.filterMap Event.call?)) r := by
  have manner := visit.manner steady
  have fetched' := mem_calls fetched rfl
  have all : ⟨.get key, .ok o⟩ ∈ es.filterMap Event.call? := by
    rw [hes, List.filterMap_append]
    exact List.mem_append_left _ fetched'
  obtain ⟨C, hC, others⟩ := manner.fetch_unique all
  obtain ⟨e, g, hg⟩ := List.exists_cons_of_ne_nil (List.ne_nil_of_mem fetched')
  rw [hC] at manner
  rw [hes, List.filterMap_append, hg, List.cons_append, List.cons.injEq] at hC
  obtain ⟨rfl, rfl⟩ := hC
  exact ⟨g, hg, others, manner⟩

theorem fetch_unique (visit : Visit logic wait key ws es r) (steady : logic.Steady)
    (hes : es = before ++ later) (fetched : .told (.get key) (.ok o) ∈ before) :
    (∀ k a, .told (.get k) a ∉ later) ∧
      ∀ o', .told (.get key) (.ok o') ∈ es → o' = o := by
  obtain ⟨g, hg, others, -⟩ := visit.split_at steady hes fetched
  refine ⟨fun k a h => ?_, fun o' h => ?_⟩
  · exact others ⟨.get k, a⟩ (List.mem_append_right _ (mem_calls h rfl)) k rfl
  · have h := mem_calls h rfl
    rw [hes, List.filterMap_append, hg, List.cons_append] at h
    rcases List.mem_cons.1 h with he | he
    · cases he
      rfl
    · exact absurd rfl (others _ he key)

theorem refused (visit : Visit logic wait key ws es r) (steady : logic.Steady)
    (hes : es = before ++ .client v :: later) (fetched : .told (.get key) (.ok o) ∈ before)
    (disturbs : Disturbs key (storeAfter ws before) o v) {m l : List (Event S)} {e : Event S}
    {ok : Bool} (hm : later = m ++ e :: l) (he : e.attempt? = some (w, ok)) : ok = false := by
  -- on the number of events in between: those that wrote before were refused as well
  induction hn : m.length using Nat.strong_induction_on generalizing m e l w ok with
  | h n ih =>
    have quiet : ∀ x ∈ m, x.receipt? = none := by
      intro x hx
      by_contra some
      rcases of_receipt some with ⟨k, a, rfl⟩ | ⟨u, hu⟩
      · refine (visit.fetch_unique steady hes fetched).1 k a ?_
        exact List.mem_cons_of_mem _ (hm ▸ List.mem_append_left _ hx)
      · obtain ⟨m₁, m₂, rfl⟩ := List.append_of_mem hx
        have shorter : m₁.length < n := by
          rw [← hn, List.length_append, List.length_cons]
          omega
        cases ih _ shorter (hm.trans (List.append_assoc ..)) hu rfl
    have hes' : es = before ++ .client v :: m ++ e :: l := by
      rw [hes, hm, List.append_assoc]
      rfl
    have isOk := visit.attempt_isOk hes' he
    obtain ⟨q, a, rfl, hw⟩ := eq_told_of_attempt he
    obtain ⟨o', b, x, P, R, received, hx, copies⟩ := visit.held steady hes' hw
    have hP := received.prefix_before quiet
    have same : o' = o := by
      refine (visit.fetch_unique steady hes fetched).2 o' ?_
      rw [hes]
      exact List.mem_append_left _ (hP.subset received.fetched)
    have retired :=
    visit.retired_of_disturbed hes hP received.stored (same ▸ received.mark) disturbs
    have retired := visit.retired ⟨m, List.append_assoc ..⟩ ⟨_, hes'.symm⟩ retired
    cases ok with
    | false => rfl
    | true =>
      obtain ⟨c, stored, version⟩ := (Store.isOk_write_iff hx).1 isOk
      have current : c.version = b.version := version.symm.trans copies.2
      exact absurd current (retired.ne x.key c (by rw [← stored]; rfl))

omit [ResourceKind S] in
theorem call_of_attempt {e : Event S} {ok : Bool} (he : e.attempt? = some (w, ok)) :
    ∃ q a, e.call? = some ⟨q, a⟩ ∧ e = .told q a ∧ q.write? = some w := by
  obtain ⟨q, a, rfl, hw⟩ := eq_told_of_attempt he
  refine ⟨q, a, ?_, rfl, hw⟩
  cases q <;> first | rfl | cases hw

omit [ResourceKind S] in
theorem calls_ne_nil {e : Event S} {ok : Bool} (he : e.attempt? = some (w, ok)) (v : Write S)
    (mid later : List (Event S)) :
    (Event.client v :: (mid ++ e :: later)).filterMap Event.call? ≠ [] := by
  obtain ⟨q, a, call, -, -⟩ := call_of_attempt he
  refine List.ne_nil_of_mem (List.mem_filterMap.2 ⟨e, ?_, call⟩)
  exact List.mem_cons_of_mem _ (List.mem_append_right _ List.mem_cons_self)

section

variable (visit : Visit logic wait key ws es r) (steady : logic.Steady)
  {mid : List (Event S)} {e : Event S} {ok : Bool}
  (hes : es = before ++ .client v :: (mid ++ e :: later))
  (fetched : .told (.get key) (.ok o) ∈ before) (he : e.attempt? = some (w, ok))
include visit steady hes fetched

theorem refused_of_mem (disturbs : Disturbs key (storeAfter ws before) o v) {e' : Event S}
    (he' : e' ∈ mid ++ e :: later) (w' : Write S) : e'.attempt? ≠ some (w', true) := by
  intro accepted
  obtain ⟨m, l, hm⟩ := List.append_of_mem he'
  cases visit.refused steady hes fetched disturbs hm accepted

include he

theorem guards_of_before (unmarked : o.wasDeleted = false) {e' : Event S} {w' : Write S}
    {ok' : Bool} (he' : e' ∈ before) (attempt : e'.attempt? = some (w', ok')) :
    w' = .update (o.withFinalizer (ResourceKind.finalizer S)) := by
  obtain ⟨g, hg, -, manner⟩ := visit.split_at steady hes fetched
  have more := calls_ne_nil he v mid later
  obtain ⟨q', a', call', -, hw'⟩ := call_of_attempt attempt
  have mem : ⟨q', a'⟩ ∈ before.filterMap Event.call? := List.mem_filterMap.2 ⟨e', he', call'⟩
  rw [hg] at mem
  have mem := (List.mem_cons.1 mem).resolve_left fun h => by
    cases h
    cases hw'
  obtain ⟨g₁, g₂, rfl⟩ := List.append_of_mem mem
  rcases manner.of_unmarked unmarked with none | ⟨b, gs, s, hC, guards, closes⟩
  · exact absurd (List.append_eq_nil_iff.1 none).2 more
  · rw [List.append_assoc] at hC
    rcases Pass.split_append hC with ⟨E, hE, -⟩ | ⟨E, -, hE⟩
    · have same := guards.updates hE
      subst same
      cases hw'
      rfl
    · have last : g₂ ++ _ = [] := closes.last hE
      exact absurd (List.append_eq_nil_iff.1 last).2 more

/-- A pass whose unmarked object is changed before it writes fails for that reason; all that it may
have written is the finalizer, before the change. -/
theorem disturbed_live (unmarked : o.wasDeleted = false) (hv : v.key = key)
    (accepted : ((storeAfter ws before).write v).answer.isOk) :
    (∃ x, r = .error x ∧ (x.isConflict = true ∨ x.isNotFound = true)) ∧
      (∀ e' ∈ mid ++ e :: later, ∀ w', e'.attempt? ≠ some (w', true)) ∧
      ∀ e' ∈ before, ∀ w', e'.attempt? = some (w', true) →
        w' = .update (o.withFinalizer (ResourceKind.finalizer S)) := by
  have disturbs : Disturbs key (storeAfter ws before) o v := .inl ⟨unmarked, hv, accepted⟩
  refine ⟨?_, fun e' he' => visit.refused_of_mem steady hes fetched disturbs he',
    fun e' he' w' => visit.guards_of_before steady hes fetched he unmarked he'⟩
  obtain ⟨g, hg, -, manner⟩ := visit.split_at steady hes fetched
  have more := calls_ne_nil he v mid later
  rcases manner.of_unmarked unmarked with none | ⟨b, gs, s, hC, guards, closes⟩
  · exact absurd (List.append_eq_nil_iff.1 none).2 more
  cases closes with
  | stale conflict => exact ⟨_, rfl, .inl conflict⟩
  | @told x _ answer =>
    -- the write of the status comes after the change, so it is refused
    have told : .told (.updateStatus x) answer ∈ es := by
      refine mem_of_mem_calls ?_
      rw [hes, List.filterMap_append, hg, List.cons_append, hC]
      simp
    have attempt : (Event.told (.updateStatus x) answer).attempt? =
      some (.updateStatus x, answer.isOk) := rfl
    have after : .told (.updateStatus x) answer ∈ mid ++ e :: later := by
      rw [hes] at told
      rcases List.mem_append.1 told with told | told
      · cases visit.guards_of_before steady hes fetched he unmarked told attempt
      · exact (List.mem_cons.1 told).resolve_left (by simp)
    cases answer with
    | ok => exact absurd attempt (visit.refused_of_mem steady hes fetched disturbs after _)
    | error y =>
      obtain ⟨P, R, split⟩ := List.append_of_mem told
      have held := Store.updateStatus_eq_error (visit.answer_of_updateStatus split)
      refine ⟨_, rfl, ?_⟩
      rcases Store.held_eq_error held with ⟨-, -, gone⟩ | ⟨-, -, conflict⟩
      · exact .inr gone
      · exact .inl conflict

omit he in
/-- A removal of the finalizer from an object that was changed is refused, as are all writes of such
a pass. It fails for that reason, unless the object is gone. -/
theorem disturbed_deleting (marked : o.wasDeleted = true)
    (change : ((storeAfter ws before).write v).change.map (·.key) = some key) {u : Resource S}
    {a : Except StoreError (Resource S)} (removal : e = .told (.update u) a) :
    (∀ e' ∈ es, ∀ w', e'.attempt? ≠ some (w', true)) ∧
      ((∃ c, (storeAfter ws (before ++ .client v :: mid)).get? key = some c) ∧
          (∃ x, r = .error x ∧ x.isConflict = true) ∨
        (storeAfter ws (before ++ .client v :: mid)).get? key = none ∧ r = .ok none) := by
  subst removal
  have disturbs : Disturbs key (storeAfter ws before) o v := .inr change
  have refused : a.isOk = false := by
    have attempt : (Event.told (.update u) a).attempt? = some (.update u, a.isOk) := rfl
    exact visit.refused steady hes fetched disturbs rfl attempt
  obtain ⟨g, hg, -, manner⟩ := visit.split_at steady hes fetched
  have hes' : es = before ++ .client v :: mid ++ .told (.update u) a :: later := by
    rw [hes, List.append_assoc]
    rfl
  cases a with
  | ok => cases refused
  | error y =>
    have held := Store.update_eq_error (visit.answer_of_update hes')
    have why := Store.held_eq_error held
    have mem : ⟨.update u, .error y⟩ ∈ g ++
        (Event.client v :: (mid ++ .told (.update u) (.error y) :: later)).filterMap
          Event.call? := by
      refine List.mem_append_right _ (mem_calls ?_ rfl)
      simp
    rcases manner.of_marked marked with none | up
    · rw [none] at mem
      cases mem
    obtain ⟨rfl, all, rfl⟩ := up.refused mem (why.imp (·.2.1) (·.2.2))
    refine ⟨fun e' he' w' accepted => ?_, ?_⟩
    · obtain ⟨q', a', call', rfl, hw'⟩ := call_of_attempt accepted
      have mem : ⟨q', a'⟩ ∈ es.filterMap Event.call? := List.mem_filterMap.2 ⟨_, he', call'⟩
      rw [hes, List.filterMap_append, hg, List.cons_append, all] at mem
      simp only [List.mem_cons, List.not_mem_nil, or_false] at mem
      rcases mem with he | he
      · cases he
        cases hw'
      · cases he
        cases accepted
    · have hk : o.key = key := by
        obtain ⟨A, B, rfl⟩ := List.append_of_mem fetched
        exact keyed ws _ key o (visit.stored_of_get (hes.trans (List.append_assoc ..)))
      rw [← hk]
      rcases why with ⟨gone, isNotFound, -⟩ | ⟨stored, other, conflict⟩
      · exact .inr ⟨gone, by rw [isNotFound]; rfl⟩
      · exact .inl ⟨stored, .finalizer "remove" (.ofStore y), by rw [other]; rfl, conflict⟩

end

theorem accepted (visit : Visit logic wait key ws es r) (steady : logic.Steady) {e : Event S}
    (hes : es = before ++ e :: later) (he : e.attempt? = some (w, true)) :
    ∃ o c, .told (.get key) (.ok o) ∈ before ∧ w.key = key ∧
      (storeAfter ws before).get? key = some c ∧ c.metadata.uid = o.metadata.uid ∧
      c.metadata.deletedAt = o.metadata.deletedAt ∧
      ∀ m v l, before = m ++ .client v :: l → .told (.get key) (.ok o) ∈ m →
        (storeAfter ws (m ++ [.client v])).get? key = (storeAfter ws m).get? key := by
  have isOk := visit.attempt_isOk hes he
  obtain ⟨q, a, rfl, hw⟩ := eq_told_of_attempt he
  obtain ⟨o, b, x, P, R, received, hx, copies⟩ := visit.held steady hes hw
  obtain ⟨c, stored, version⟩ := (Store.isOk_write_iff hx).1 isOk
  have current := visit.current_of_version ⟨R, received.split.symm⟩ ⟨_, hes.symm⟩ received.stored
    stored (version.symm.trans copies.2)
  have hk : w.key = key := by
    have hw' : w.key = x.key := by cases q <;> cases hw <;> cases hx <;> rfl
    rw [hw', copies.1]
    exact keyed ws _ key b received.stored
  refine ⟨o, b, ?_, hk, current, received.uid, received.mark, fun m v l hm fetched => ?_⟩
  · rw [received.split]
    exact List.mem_append_left _ received.fetched
  · rw [storeAfter_write ws m (w := v) rfl]
    refine (Store.turn_write (keyed ws m) v).get?_eq fun change => ?_
    have split : es = m ++ .client v :: (l ++ .told q a :: later) := by
      rw [hes, hm, List.append_assoc]
      rfl
    cases visit.refused steady split fetched (.inr change) rfl he

theorem storeAfter_refused (visit : Visit logic wait key ws es r) {e : Event S}
    (hes : es = before ++ e :: later) (he : e.attempt? = some (w, false)) :
    storeAfter ws (before ++ [e]) = storeAfter ws before := by
  have refused := visit.attempt_isOk hes he
  obtain ⟨q, a, rfl, hw⟩ := eq_told_of_attempt he
  rw [storeAfter_write ws before (e := .told q a) hw]
  exact Store.store_of_refused refused

/-- A pass does no harm to what clients write meanwhile, wherever they do. -/
theorem harmless (visit : Visit logic wait key ws es r) (steady : logic.Steady) :
    (∀ before v mid e later o w ok, es = before ++ .client v :: (mid ++ e :: later) →
      .told (.get key) (.ok o) ∈ before → o.wasDeleted = false → v.key = key →
      ((storeAfter ws before).write v).answer.isOk → e.attempt? = some (w, ok) →
      (∃ x, r = .error x ∧ (x.isConflict = true ∨ x.isNotFound = true)) ∧
        (∀ e' ∈ mid ++ e :: later, ∀ w', e'.attempt? ≠ some (w', true)) ∧
        ∀ e' ∈ before, ∀ w', e'.attempt? = some (w', true) →
          w' = .update (o.withFinalizer (ResourceKind.finalizer S))) ∧
    (∀ before v mid u a later o, es = before ++ .client v :: (mid ++ .told (.update u) a :: later) →
      .told (.get key) (.ok o) ∈ before → o.wasDeleted = true →
      ((storeAfter ws before).write v).change.map (·.key) = some key →
      (∀ e' ∈ es, ∀ w', e'.attempt? ≠ some (w', true)) ∧
        ((∃ c, (storeAfter ws (before ++ .client v :: mid)).get? key = some c) ∧
            (∃ x, r = .error x ∧ x.isConflict = true) ∨
          (storeAfter ws (before ++ .client v :: mid)).get? key = none ∧ r = .ok none)) ∧
    (∀ before e later w, es = before ++ e :: later → e.attempt? = some (w, true) →
      ∃ o c, .told (.get key) (.ok o) ∈ before ∧ w.key = key ∧
        (storeAfter ws before).get? key = some c ∧ c.metadata.uid = o.metadata.uid ∧
        c.metadata.deletedAt = o.metadata.deletedAt ∧
        ∀ m v l, before = m ++ .client v :: l → .told (.get key) (.ok o) ∈ m →
          (storeAfter ws (m ++ [.client v])).get? key = (storeAfter ws m).get? key) ∧
    (∀ before e later w, es = before ++ e :: later → e.attempt? = some (w, false) →
      storeAfter ws (before ++ [e]) = storeAfter ws before) := by
  refine ⟨fun before v mid e later o w ok hes fetched unmarked hv accepted he => ?_,
    fun before v mid u a later o hes fetched marked change => ?_,
    fun before e later w hes he => visit.accepted steady hes he,
    fun before e later w hes he => ?_⟩
  · exact visit.disturbed_live steady hes fetched he unmarked hv accepted
  · exact visit.disturbed_deleting steady hes fetched marked change rfl
  · exact visit.storeAfter_refused hes he

def guardedSample : Organization :=
  Store.empty.draw
    (((Resource.new "a" "b").withFinalizer "organization.org.nddr.yndd.io").born ⟨1⟩)

theorem harmless_marked :
    ∃ (ws : List (Write OrganizationSpec)) (before mid : List (Event OrganizationSpec))
      (e : Event OrganizationSpec) (r : Outcome) (x : ReconcileError),
      Visit Organization.logic ⟨0⟩ ⟨"a", "b"⟩ ws
        (before ++ .client (.delete .epoch ⟨"a", "b"⟩) :: (mid ++ [e])) r ∧
      ((storeAfter ws before).write (.delete .epoch ⟨"a", "b"⟩)).answer.isOk ∧
      r = .error x ∧ (x.isConflict = true ∨ x.isNotFound = true) := by
  have visit : Visit Organization.logic ⟨0⟩ ⟨"a", "b"⟩
      [.create ⟨1⟩ ((Resource.new "a" "b").withFinalizer "organization.org.nddr.yndd.io")]
      ([.told (.get ⟨"a", "b"⟩) (.ok guardedSample)] ++ .client (.delete .epoch ⟨"a", "b"⟩) ::
        ([.told .clock .epoch] ++ [.told (.updateStatus (Pass.succeeded
          (guardedSample.withObserved.setObserved
            (.up guardedSample.registers guardedSample.strategy)) .epoch))
          (.error (.conflict "Organization" (Key.text ⟨"a", "b"⟩) 1 2))]))
      (.error (.statusUpdate "Organization"
        (.ofStore (.conflict "Organization" (Key.text ⟨"a", "b"⟩) 1 2)))) := by
    refine ⟨.told (.told (.told (.here _))), fun before q answer later h => ?_, ?_⟩
    · rcases before with _ | ⟨e, _ | ⟨e, _ | ⟨e, _ | ⟨e, rest⟩⟩⟩⟩
      · cases h
        exact ⟨_, .get ⟨"a", "b"⟩⟩
      · cases h
      · cases h
        exact ⟨_, .clock _⟩
      · cases h
        exact ⟨_, .updateStatus _⟩
      · simp at h
    · exact (History.log_length_le _).trans_lt (by decide)
  obtain ⟨⟨x, failed, why⟩, -⟩ := (visit.harmless Organization.steady).1 _ _ _ _ [] guardedSample
    (.updateStatus _) false rfl (List.mem_singleton_self _) rfl rfl rfl rfl
  exact ⟨_, _, _, _, _, x, visit, rfl, failed, why⟩

end Visit
end Tenancy
