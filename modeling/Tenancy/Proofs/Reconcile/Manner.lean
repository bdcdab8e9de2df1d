import Tenancy.Deployment.Logic
import Tenancy.Proofs.Deployment.Upkeep
import Tenancy.Proofs.Reconcile.Exits

/-! What a pass asks of its store. It gets one object; then it writes at most once to guard it or to
give it up, and at most once to tell its status. Each write holds the version of the object that
the pass has received last. -/

namespace Tenancy

variable {S : Type}

def Resource.Copies (x o : Resource S) : Prop := x.key = o.key ∧ x.version = o.version

namespace Resource.Copies

theorem rfl {o : Resource S} : o.Copies o := ⟨Eq.refl _, Eq.refl _⟩

theorem trans {x y o : Resource S} (h : x.Copies y) (h' : y.Copies o) : x.Copies o :=
  ⟨h.1.trans h'.1, h.2.trans h'.2⟩

theorem withFinalizer (o : Resource S) (f : String) : (o.withFinalizer f).Copies o := by
  refine ⟨o.key_withFinalizer f, ?_⟩
  unfold Resource.withFinalizer Metadata.addFinalizer
  split <;> exact Eq.refl _

theorem withObserved (o : Resource S) : o.withObserved.Copies o := by
  refine ⟨o.key_withObserved, ?_⟩
  unfold Resource.withObserved Resource.allocate
  split <;> exact Eq.refl _

end Resource.Copies

/-- What prepares the object and what works out its status keep its key and its version. -/
structure Logic.Steady (logic : Logic S) : Prop where
  prepare : ∀ o t o' r, Program.Leads (Pass.inquire (S := S) (logic.prepare o)) t (.done (o', r)) →
    o'.Copies o
  apply : ∀ o t o' r, Program.Leads (Pass.inquire (S := S) (logic.apply o)) t (.done (o', r)) →
    o'.Copies o

theorem Logic.steady_paced {apply : Resource S → Inquiry (Hooked S)}
    (h : ∀ o t o' r, Program.Leads (Pass.inquire (S := S) (apply o)) t (.done (o', r)) →
      o'.Copies o) : (Logic.paced apply).Steady := by
  refine ⟨fun o t o' r l => ?_, h⟩
  cases l
  exact .withObserved o

theorem Organization.steady : Organization.logic.Steady := by
  refine Logic.steady_paced fun o t o' r l => ?_
  cases l
  exact .rfl

theorem Deployment.steady : Deployment.logic.Steady := by
  refine Logic.steady_paced fun o t o' r l => ?_
  cases l with
  | @told _ _ answer _ _ l =>
    cases answer with
    | error e =>
      cases l
      exact .rfl
    | ok organizations =>
      dsimp only [Pass.inquire, Program.bind, Program.embed] at l
      split at l <;> cases l <;> exact .rfl

namespace Request

def isCall : Request S → Bool
  | get _ | update _ | updateStatus _ => true
  | clock | logic _ => false

end Request

namespace Pass

open Program

def calls (t : Talk S) : Talk S := t.filter (·.1.isCall)

theorem calls_append (t u : Talk S) : calls (t ++ u) = calls t ++ calls u := List.filter_append ..

theorem calls_inquire {α : Type} {i : Inquiry α} {t : Talk S} {a : α}
    (l : Leads (inquire i) t (.done a)) : calls t = [] := by
  refine List.filter_eq_nil_iff.2 fun said hs => ?_
  have only : (inquire i : Pass S α).Only (fun q : Request S => q.isCall = false) := by
    refine only_embed (fun q => ?_) i
    rfl
  simpa using only.mem l said hs

variable [ResourceKind S]

/-- How a pass guards an unmarked object, and the object that it has received last. -/
inductive Guards (o : Resource S) : Talk S → Resource S → Prop
  | had : Guards o [] o
  | given (n : Resource S) :
    Guards o [⟨.update (o.withFinalizer (ResourceKind.finalizer S)), .ok n⟩] n
  | refused (e : StoreError) :
    Guards o [⟨.update (o.withFinalizer (ResourceKind.finalizer S)), .error e⟩] o

/-- How a pass over an unmarked object ends, of which the last that it has received is given. -/
inductive Closes (b : Resource S) : Talk S → Outcome → Prop
  | stale {e : ReconcileError} (conflict : e.isConflict = true) : Closes b [] (.error e)
  | told {x : Resource S} (copies : x.Copies b) (answer : Except StoreError (Resource S))
    (r : Outcome) : Closes b [⟨.updateStatus x, answer⟩] (afterWrite S answer r)

inductive GivesUp (o : Resource S) : Talk S → Outcome → Prop
  | idle (r : Outcome) : GivesUp o [] r
  | told {x : Resource S} (copies : x.Copies o) (answer : Except StoreError (Resource S))
    (r : Outcome) : GivesUp o [⟨.updateStatus x, answer⟩] r
  | removed (n : Resource S) :
    GivesUp o [⟨.update (o.withoutFinalizer (ResourceKind.finalizer S)), .ok n⟩] (.ok none)
  | gone {e : StoreError} (gone : e.isNotFound = true) :
    GivesUp o [⟨.update (o.withoutFinalizer (ResourceKind.finalizer S)), .error e⟩] (.ok none)
  | stale {e : StoreError} (conflict : (ReconcileError.ofStore e).isConflict = true) :
    GivesUp o [⟨.update (o.withoutFinalizer (ResourceKind.finalizer S)), .error e⟩]
      (.error (.finalizer "remove" (.ofStore e)))
  | failed {e : StoreError} (other : e.isNotFound = false)
    (fresh : (ReconcileError.ofStore e).isConflict = false) {x : Resource S} (copies : x.Copies o)
    (answer : Except StoreError (Resource S)) (r : Outcome) :
    GivesUp o [⟨.update (o.withoutFinalizer (ResourceKind.finalizer S)), .error e⟩,
      ⟨.updateStatus x, answer⟩] r

inductive Manner (key : Key) : Talk S → Outcome → Prop
  | unread (e : StoreError) (r : Outcome) : Manner key [⟨.get key, .error e⟩] r
  | misfit (o : Resource S) (r : Outcome) : Manner key [⟨.get key, .ok o⟩] r
  | live {o b g s r} (mark : o.wasDeleted = false) (guards : Guards o g b) (closes : Closes b s r) :
    Manner key (⟨.get key, .ok o⟩ :: g ++ s) r
  | deleting {o u r} (mark : o.wasDeleted = true) (up : GivesUp o u r) :
    Manner key (⟨.get key, .ok o⟩ :: u) r

variable {logic : Logic S} {guard : Finalizer S} {wait : Span} {key : Key} {p : Phase}
  {o o' b : Resource S} {e : ReconcileError} {ss : List Step} {c : Course S} {t g s : Talk S}
  {r : Outcome}

theorem calls_add {res : Except ReconcileError Unit}
    (l : Leads (amend (Finalizer.addInStore o)) t (.done (o', res))) :
    ∃ b, Guards o (calls t) b ∧ o'.Copies b := by
  rw [Finalizer.addInStore_eq] at l
  split at l
  · cases l
    exact ⟨o, .had, .rfl⟩
  · cases l with
    | @told _ _ answer _ _ l =>
      cases answer with
      | ok n =>
        cases l
        exact ⟨o', .given o', .rfl⟩
      | error e =>
        cases l
        exact ⟨o, .refused e, .withFinalizer o _⟩

theorem calls_remove {res : Except ReconcileError Unit}
    (l : Leads (amend (Finalizer.removeInStore o)) t (.done (o', res))) :
    calls t = [] ∧ res = .ok () ∨
      ∃ answer, calls t = [⟨.update (o.withoutFinalizer (ResourceKind.finalizer S)), answer⟩] ∧
        ((∃ n, answer = .ok n ∧ res = .ok ()) ∨
          ∃ e, answer = .error e ∧ o'.Copies o ∧
            res = if e.isNotFound then .ok () else .error (.ofStore e)) := by
  rw [Finalizer.removeInStore_eq] at l
  split at l
  · cases l
    exact .inl ⟨rfl, rfl⟩
  · cases l with
    | @told _ _ answer _ _ l =>
      cases answer with
      | ok n =>
        cases l
        exact .inr ⟨_, rfl, .inl ⟨_, rfl, rfl⟩⟩
      | error e =>
        cases l
        exact .inr ⟨_, rfl, .inr ⟨e, rfl, ⟨rfl, rfl⟩, rfl⟩⟩

theorem Reaches.calls_live (h : Reaches logic guard key .live o ss t) :
    o.wasDeleted = false ∧ calls t = [⟨.get key, .ok o⟩] := by
  cases h with
  | live _ mark => exact ⟨mark, rfl⟩

theorem Reaches.calls_deleting (h : Reaches logic guard key .deleting o ss t) :
    o.wasDeleted = true ∧ calls t = [⟨.get key, .ok o⟩] := by
  cases h with
  | deleting _ mark => exact ⟨mark, rfl⟩

theorem Reaches.guards (steady : logic.Steady) (h : Reaches logic .inStore key p o ss t)
    (hl : p ≠ .live) (hd : p ≠ .deleting) :
    ∃ x g b, x.wasDeleted = false ∧ calls t = ⟨.get key, .ok x⟩ :: g ∧ Guards x g b ∧
      o.Copies b := by
  induction h with
  | live => exact absurd rfl hl
  | deleting => exact absurd rfl hd
  | guarded reaches l =>
    obtain ⟨mark, asked⟩ := reaches.calls_live
    obtain ⟨b, guards, copies⟩ := calls_add l
    refine ⟨_, _, b, mark, ?_, guards, copies⟩
    rw [calls_append, asked]
    rfl
  | prepared _ l ih =>
    obtain ⟨x, g, b, mark, asked, guards, copies⟩ := ih (by simp) (by simp)
    refine ⟨x, g, b, mark, ?_, guards, (steady.prepare _ _ _ _ l).trans copies⟩
    rw [calls_append, asked, calls_inquire l, List.append_nil]
  | applied _ l ih =>
    obtain ⟨x, g, b, mark, asked, guards, copies⟩ := ih (by simp) (by simp)
    refine ⟨x, g, b, mark, ?_, guards, (steady.apply _ _ _ _ l).trans copies⟩
    rw [calls_append, asked, calls_inquire l, List.append_nil]

theorem Records.closes {w : Option (StatusWrite S)} (h : Records o e w t r) (copies : o.Copies b) :
    Closes b (calls t) r := by
  cases h with
  | stale conflict => exact .stale conflict
  | recorded _ now answer =>
    have copies : (failed o e now).Copies b := copies
    exact .told copies answer _

theorem Records.givesUp {w : Option (StatusWrite S)} (h : Records o e w t r) (copies : o.Copies b) :
    GivesUp b (calls t) r := by
  cases h with
  | stale conflict => exact .idle _
  | recorded _ now answer =>
    have copies : (failed o e now).Copies b := copies
    exact .told copies answer _

theorem manner_of_broken (steady : logic.Steady) {u v : Talk S} {w : Option (StatusWrite S)}
    (reaches : Reaches logic .inStore key p o ss t) (breaks : Breaks logic .inStore p o u e o')
    (records : Records o' e w v r) : Manner key (calls (t ++ u ++ v)) r := by
  rw [calls_append, calls_append]
  cases breaks with
  | guarding l =>
    obtain ⟨mark, asked⟩ := reaches.calls_live
    obtain ⟨b, guards, copies⟩ := calls_add l
    rw [asked]
    exact .live mark guards (records.closes copies)
  | preparing l =>
    obtain ⟨x, g, b, mark, asked, guards, copies⟩ := reaches.guards steady (by simp) (by simp)
    rw [asked, calls_inquire l, List.append_nil]
    exact .live mark guards (records.closes ((steady.prepare _ _ _ _ l).trans copies))
  | applying l =>
    obtain ⟨x, g, b, mark, asked, guards, copies⟩ := reaches.guards steady (by simp) (by simp)
    rw [asked, calls_inquire l, List.append_nil]
    exact .live mark guards (records.closes ((steady.apply _ _ _ _ l).trans copies))
  | cleaningUp l =>
    obtain ⟨mark, asked⟩ := reaches.calls_deleting
    rw [asked, calls_inquire l, List.append_nil]
    exact .deleting mark (records.givesUp .rfl)
  | givingUp cleaned l =>
    obtain ⟨mark, asked⟩ := reaches.calls_deleting
    rw [asked, calls_append, calls_inquire cleaned, List.nil_append]
    obtain ⟨-, he⟩ | ⟨answer, updated, ⟨n, rfl, he⟩ | ⟨x, rfl, copies, he⟩⟩ := calls_remove l
    · cases he
    · cases he
    · rw [updated]
      cases gone : x.isNotFound with
      | true =>
        rw [gone] at he
        cases he
      | false =>
        rw [gone] at he
        cases he
        cases records with
        | stale conflict => exact .deleting mark (.stale conflict)
        | recorded fresh now answer =>
          have copies : (failed o' (.finalizer "remove" (.ofStore x)) now).Copies o := copies
          exact .deleting mark (.failed gone fresh copies answer _)

theorem manner_of_applied (steady : logic.Steady) {u : Talk S} {x : Resource S}
    (reaches : Reaches logic .inStore key .applied o ss t) (kept : x.Copies o)
    (answer : Except StoreError (Resource S)) (r : Outcome)
    (told : calls u = [⟨.updateStatus x, answer⟩]) :
    Manner key (calls (t ++ u)) (afterWrite S answer r) := by
  obtain ⟨y, g, b, mark, asked, guards, copies⟩ := reaches.guards steady (by simp) (by simp)
  rw [calls_append, asked, told]
  exact .live mark guards (.told (kept.trans copies) answer r)

theorem manner_of_takes (steady : logic.Steady) (h : Takes logic .inStore wait key c t r) :
    Manner key (calls t) r := by
  cases h with
  | @vanished e => exact .unread e _
  | @unread e => exact .unread e _
  | @misfit o => exact .misfit o _
  | broken reaches breaks records => exact manner_of_broken steady reaches breaks records
  | pending reaches l =>
    obtain ⟨mark, asked⟩ := reaches.calls_deleting
    rw [calls_append, asked, calls_inquire l]
    exact .deleting mark (.idle _)
  | released reaches cleaned removed l =>
    obtain ⟨mark, asked⟩ := reaches.calls_deleting
    simp only [calls_append, asked, calls_inquire cleaned, calls_inquire l, List.append_nil]
    obtain ⟨none, -⟩ | ⟨answer, updated, ⟨n, rfl, -⟩ | ⟨x, rfl, copies, he⟩⟩ := calls_remove removed
    · rw [none]
      exact .deleting mark (.idle _)
    · rw [updated]
      exact .deleting mark (.removed n)
    · rw [updated]
      cases gone : x.isNotFound with
      | true => exact .deleting mark (.gone gone)
      | false =>
        rw [gone] at he
        cases he
  | @unwritten o _ _ reaches now e =>
    have kept : (succeeded o now).Copies o := ⟨rfl, rfl⟩
    exact manner_of_applied steady reaches kept (.error e) (.ok none) rfl
  | @converged o _ _ _ a d reaches now l =>
    have kept : (succeeded o now).Copies o := ⟨rfl, rfl⟩
    rw [List.append_assoc]
    refine manner_of_applied steady reaches kept (.ok a) (.ok (some d)) ?_
    rw [calls_append, calls_inquire l]
    rfl

theorem manner_of_run (steady : logic.Steady)
    (l : Leads (run logic .inStore wait key) t (.done r)) : Manner key (calls t) r := by
  obtain ⟨c, takes⟩ := takes_of_run l
  exact manner_of_takes steady takes

/-! ### The writes of a pass -/

def receipt? : (Σ q : Request S, q.Answer) → Option (Resource S)
  | ⟨.get _, .ok o⟩ | ⟨.update _, .ok o⟩ => some o
  | _ => none

section

variable {α : Type} {x y z : α} {A B : List α}

theorem eq_of_split_one (h : A ++ x :: B = [y]) : A = [] ∧ x = y ∧ B = [] := by
  rcases A with _ | ⟨a, A⟩
  · cases h
    exact ⟨rfl, rfl, rfl⟩
  · simp at h

theorem eq_of_split_two (h : A ++ x :: B = [y, z]) :
    A = [] ∧ x = y ∧ B = [z] ∨ A = [y] ∧ x = z ∧ B = [] := by
  rcases A with _ | ⟨a, A⟩
  · cases h
    exact .inl ⟨rfl, rfl, rfl⟩
  · rw [List.cons_append, List.cons.injEq] at h
    obtain ⟨rfl, h⟩ := h
    obtain ⟨rfl, rfl, rfl⟩ := eq_of_split_one h
    exact .inr ⟨rfl, rfl, rfl⟩

theorem split_append {C D : List α} (h : A ++ x :: B = C ++ D) :
    (∃ E, A ++ x :: E = C ∧ B = E ++ D) ∨ ∃ E, A = C ++ E ∧ E ++ x :: B = D := by
  rcases List.append_eq_append_iff.1 h with ⟨E, rfl, hE⟩ | ⟨E, rfl, hE⟩
  · rcases E with _ | ⟨y, E⟩
    · exact .inr ⟨[], by simp, hE⟩
    · cases hE
      exact .inl ⟨E, rfl, rfl⟩
  · exact .inr ⟨E, rfl, hE.symm⟩

end

variable {A B u : Talk S} {q : Request S} {a : q.Answer} {w : Write S}

theorem Guards.held (h : Guards o g b) (hg : A ++ ⟨q, a⟩ :: B = g) (hw : q.write? = some w) :
    A = [] ∧ ∃ x, w.held? = some x ∧ x.Copies o := by
  cases h with
  | had => simp at hg
  | given | refused =>
    obtain ⟨rfl, he, -⟩ := eq_of_split_one hg
    cases he
    cases hw
    exact ⟨rfl, _, rfl, .withFinalizer o _⟩

theorem Guards.updates (h : Guards o g b) (hg : A ++ ⟨q, a⟩ :: B = g) :
    q = .update (o.withFinalizer (ResourceKind.finalizer S)) := by
  cases h with
  | had => simp at hg
  | given | refused =>
    obtain ⟨-, he, -⟩ := eq_of_split_one hg
    cases he
    rfl

theorem Guards.base (h : Guards o g b) : b = o ∧ (∀ e ∈ g, receipt? e = none) ∨
    g = [⟨.update (o.withFinalizer (ResourceKind.finalizer S)), .ok b⟩] := by
  cases h with
  | had => exact .inl ⟨rfl, List.forall_mem_nil _⟩
  | given => exact .inr rfl
  | refused => exact .inl ⟨rfl, by simp [receipt?]⟩

theorem Closes.held (h : Closes b s r) (hs : A ++ ⟨q, a⟩ :: B = s) (hw : q.write? = some w) :
    A = [] ∧ ∃ x, w.held? = some x ∧ x.Copies b := by
  cases h with
  | stale => simp at hs
  | told copies =>
    obtain ⟨rfl, he, -⟩ := eq_of_split_one hs
    cases he
    cases hw
    exact ⟨rfl, _, rfl, copies⟩

theorem Closes.last (h : Closes b s r) (hs : A ++ ⟨q, a⟩ :: B = s) : B = [] := by
  cases h with
  | stale => simp at hs
  | told => exact (eq_of_split_one hs).2.2

theorem GivesUp.held (h : GivesUp o u r) (hu : A ++ ⟨q, a⟩ :: B = u) (hw : q.write? = some w) :
    (∀ e ∈ A, receipt? e = none) ∧ ∃ x, w.held? = some x ∧ x.Copies o := by
  cases h with
  | idle => simp at hu
  | told copies =>
    obtain ⟨rfl, he, -⟩ := eq_of_split_one hu
    cases he
    cases hw
    exact ⟨List.forall_mem_nil _, _, rfl, copies⟩
  | removed | gone | stale =>
    obtain ⟨rfl, he, -⟩ := eq_of_split_one hu
    cases he
    cases hw
    exact ⟨List.forall_mem_nil _, _, rfl, rfl, rfl⟩
  | failed _ _ copies =>
    rcases eq_of_split_two hu with ⟨rfl, he, -⟩ | ⟨rfl, he, -⟩
    · cases he
      cases hw
      exact ⟨List.forall_mem_nil _, _, rfl, rfl, rfl⟩
    · cases he
      cases hw
      exact ⟨by simp [receipt?], _, rfl, copies⟩

/-- A write of a pass holds the version of what was received last: of the object that was fetched,
or of this object as it was guarded. -/
theorem Manner.held {K : Talk S} (h : Manner key K r) (hK : A ++ ⟨q, a⟩ :: B = K)
    (hw : q.write? = some w) :
    ∃ o x g, A = ⟨.get key, .ok o⟩ :: g ∧ w.held? = some x ∧
      (x.Copies o ∧ (∀ e ∈ g, receipt? e = none) ∨
        o.wasDeleted = false ∧ ∃ n, x.Copies n ∧
          g = [⟨.update (o.withFinalizer (ResourceKind.finalizer S)), .ok n⟩]) := by
  -- the fetch itself is no write
  have got {answer} {C : Talk S} (h : A ++ ⟨q, a⟩ :: B = ⟨.get key, answer⟩ :: C) :
      ∃ g, A = ⟨.get key, answer⟩ :: g ∧ g ++ ⟨q, a⟩ :: B = C := by
    rcases A with _ | ⟨e, g⟩
    · cases h
      cases hw
    · rw [List.cons_append, List.cons.injEq] at h
      exact ⟨g, by rw [h.1], h.2⟩
  cases h with
  | unread | misfit =>
    obtain ⟨g, -, hC⟩ := got hK
    simp at hC
  | @live o b g s r mark guards closes =>
    obtain ⟨g', rfl, hC⟩ := got hK
    rcases split_append hC with ⟨E, hg, -⟩ | ⟨E, rfl, hs⟩
    · obtain ⟨rfl, x, hx, copies⟩ := guards.held hg hw
      exact ⟨o, x, [], rfl, hx, .inl ⟨copies, List.forall_mem_nil _⟩⟩
    · obtain ⟨rfl, x, hx, copies⟩ := closes.held hs hw
      rw [List.append_nil]
      rcases guards.base with ⟨rfl, none⟩ | rfl
      · exact ⟨b, x, g, rfl, hx, .inl ⟨copies, none⟩⟩
      · exact ⟨o, x, _, rfl, hx, .inr ⟨mark, b, copies, rfl⟩⟩
  | @deleting o u r mark up =>
    obtain ⟨g, rfl, hC⟩ := got hK
    obtain ⟨none, x, hx, copies⟩ := up.held hC hw
    exact ⟨o, x, g, rfl, hx, .inl ⟨copies, none⟩⟩

theorem Manner.fetch {K : Talk S} (h : Manner key K r) :
    ∃ answer C, K = ⟨.get key, answer⟩ :: C ∧ ∀ said ∈ C, ∀ k, said.1 ≠ .get k := by
  have guards {o b : Resource S} {g : Talk S} (h : Guards o g b) :
      ∀ said ∈ g, ∀ k, said.1 ≠ .get k := by
    cases h <;> simp
  have closes {b : Resource S} {s : Talk S} (h : Closes b s r) :
      ∀ said ∈ s, ∀ k, said.1 ≠ .get k := by
    cases h <;> simp
  have up {o : Resource S} {u : Talk S} (h : GivesUp o u r) :
      ∀ said ∈ u, ∀ k, said.1 ≠ .get k := by
    cases h <;> simp
  cases h with
  | unread | misfit => exact ⟨_, _, rfl, List.forall_mem_nil _⟩
  | live _ g c => exact ⟨_, _, rfl, List.forall_mem_append.2 ⟨guards g, closes c⟩⟩
  | deleting _ u => exact ⟨_, _, rfl, up u⟩

theorem Manner.fetch_unique {K : Talk S} (h : Manner key K r)
    (fetched : ⟨.get key, .ok o⟩ ∈ K) :
    ∃ C, K = ⟨.get key, .ok o⟩ :: C ∧ ∀ said ∈ C, ∀ k, said.1 ≠ .get k := by
  obtain ⟨answer, C, rfl, others⟩ := h.fetch
  rcases List.mem_cons.1 fetched with he | he
  · cases he
    exact ⟨C, rfl, others⟩
  · exact absurd rfl (others _ he key)

theorem Manner.of_unmarked {C : Talk S} (h : Manner key (⟨.get key, .ok o⟩ :: C) r)
    (mark : o.wasDeleted = false) :
    C = [] ∨ ∃ b g s, C = g ++ s ∧ Guards o g b ∧ Closes b s r := by
  cases h with
  | misfit => exact .inl rfl
  | live _ guards closes => exact .inr ⟨_, _, _, rfl, guards, closes⟩
  | deleting mark' => cases mark'.symm.trans mark

theorem Manner.of_marked {C : Talk S} (h : Manner key (⟨.get key, .ok o⟩ :: C) r)
    (mark : o.wasDeleted = true) : C = [] ∨ GivesUp o C r := by
  cases h with
  | misfit => exact .inl rfl
  | live mark' => cases mark'.symm.trans mark
  | deleting _ up => exact .inr up

theorem GivesUp.refused {x : Resource S} {y : StoreError} (h : GivesUp o u r)
    (hu : ⟨.update x, .error y⟩ ∈ u)
    (hy : y.isNotFound = true ∨ (ReconcileError.ofStore y).isConflict = true) :
    x = o.withoutFinalizer (ResourceKind.finalizer S) ∧ u = [⟨.update x, .error y⟩] ∧
      r = if y.isNotFound then .ok none else .error (.finalizer "remove" (.ofStore y)) := by
  cases h with
  | idle | told | removed => simp at hu
  | gone gone =>
    cases List.mem_singleton.1 hu
    exact ⟨rfl, rfl, by rw [gone]; rfl⟩
  | @stale e conflict =>
    cases List.mem_singleton.1 hu
    have fresh : y.isNotFound = false := by
      cases y with
      | notFound => cases conflict
      | alreadyExists | conflict | backend => rfl
    exact ⟨rfl, rfl, by rw [fresh]; rfl⟩
  | failed other fresh =>
    simp only [List.mem_cons, List.not_mem_nil, or_false] at hu
    rcases hu with he | he
    · cases he
      rcases hy with hy | hy
      · cases hy.symm.trans other
      · cases hy.symm.trans fresh
    · cases he

end Pass
end Tenancy
