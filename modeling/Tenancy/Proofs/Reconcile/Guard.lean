import Tenancy.Organization.Logic
import Tenancy.Proofs.Reconcile.Dialogue
import Tenancy.Proofs.Store.Versions

/-! Guarded deletion. Clients and passes use one store in any order of steps. An object that has the
finalizer of its kind goes only in the update of a pass that fetched this very object with its mark
and whose hook has said that all is cleaned up; until then it is stored, and a mark stays. -/

namespace Tenancy

variable {S : Type}

namespace Resource

theorem mem_withFinalizer (o : Resource S) (f : String) :
    f ∈ (o.withFinalizer f).metadata.finalizers := by
  unfold withFinalizer Metadata.addFinalizer
  split
  · rename_i h
    exact List.contains_iff_mem.1 h
  · exact List.mem_append_right _ (List.mem_singleton_self f)

theorem hasOwnFinalizer_iff [ResourceKind S] {o : Resource S} :
    o.hasOwnFinalizer = true ↔ ResourceKind.finalizer S ∈ o.metadata.finalizers :=
  List.contains_iff_mem

end Resource

structure Work (S : Type) where
  dialogue : Program.Dialogue (Request.Answer (S := S))
  rest : Pass S Outcome

/-- A pass that fetched the object with its mark, whose hook has said that all is cleaned up, and
that is about to take the finalizer from the object. -/
structure Work.GivesUp [ResourceKind S] (w : Work S) (logic : Logic S) (o : Resource S) : Prop where
  marked : o.wasDeleted = true
  cleaned : ∃ key t, w.dialogue = ⟨.get key, .ok o⟩ :: t ∧
    Program.Leads (Pass.inquire (logic.cleanUp o)) t (.done (.ok true))
  next : ∃ next, w.rest = .ask (.update (o.withoutFinalizer (ResourceKind.finalizer S))) next

structure Site (S : Type) where
  history : History S
  works : List (Work S)

namespace Site

inductive Move (S : Type) where
  | client (w : Write S)
  | begin_ (key : Key)
  | ask (i : Nat)

def empty : Site S := ⟨.empty, []⟩

def store (a : Site S) : Store S := a.history.store

variable [ResourceKind S]

inductive Answered (h : History S) : (q : Request S) → q.Answer → History S → Prop
  | get (key) : Answered h (.get key) (h.store.get key) h
  | update (o) : Answered h (.update o) (h.store.update o).answer (h.write (.update o))
  | updateStatus (o) :
    Answered h (.updateStatus o) (h.store.updateStatus o).answer (h.write (.updateStatus o))
  | clock (now) : Answered h .clock now h
  | logic (a) (r : a.Answer) : Answered h (.logic a) r h

/-- One step, with passes that apply the given logic. No client takes the finalizer of the kind from
an object; a pass that is given up just asks nothing more. -/
inductive Step (logic : Logic S) (wait : Span) (a : Site S) : Move S → Site S → Prop
  | client (w : Write S)
    (keeps : ∀ k c, a.store.get? k = some c → c.hasOwnFinalizer = true →
      ¬w.Strips c (ResourceKind.finalizer S)) :
    Step logic wait a (.client w) { a with history := a.history.write w }
  | begin_ (key : Key) :
    Step logic wait a (.begin_ key)
      { a with works := a.works ++ [⟨[], Pass.run logic .inStore wait key⟩] }
  | ask {i dialogue q} {next : Request.Answer q → Pass S Outcome} {r h}
    (at_ : a.works[i]? = some ⟨dialogue, .ask q next⟩) (answered : Answered a.history q r h) :
    Step logic wait a (.ask i) ⟨h, a.works.set i ⟨dialogue ++ [⟨q, r⟩], next r⟩⟩

inductive Run (logic : Logic S) (wait : Span) (a : Site S) : Site S → Prop
  | here : Run logic wait a a
  | step {b m c} (run : Run logic wait a b) (step : Step logic wait b m c) : Run logic wait a c

variable {logic : Logic S} {wait : Span} {a b c : Site S} {m : Move S}

theorem Run.trans (h : Run logic wait a b) (h' : Run logic wait b c) : Run logic wait a c := by
  induction h' with
  | here => exact h
  | step _ step ih => exact .step ih step

/-! ### What the passes know -/

def Seen (ws : List (Write S)) (key : Key) (o : Resource S) : Prop :=
  ∃ before later, ws = before ++ later ∧ (History.after before).store.get? key = some o

structure Sound (logic : Logic S) (wait : Span) (a : Site S) (ws : List (Write S)) : Prop where
  written : a.history = .after ws
  leads : ∀ w ∈ a.works, ∃ key, Program.Leads (Pass.run logic .inStore wait key) w.dialogue w.rest
  seen : ∀ w ∈ a.works, ∀ key o, ⟨.get key, .ok o⟩ ∈ w.dialogue → Seen ws key o

theorem Seen.concat {ws : List (Write S)} {key : Key} {o : Resource S} (h : Seen ws key o)
    (vs : List (Write S)) : Seen (ws ++ vs) key o := by
  obtain ⟨before, later, rfl, ho⟩ := h
  exact ⟨before, later ++ vs, List.append_assoc .., ho⟩

theorem Answered.writes {h h' : History S} {q : Request S} {r : q.Answer} {ws : List (Write S)}
    (answered : Answered h q r h') (written : h = .after ws) :
    ∃ vs, h' = .after (ws ++ vs) := by
  subst written
  cases answered with
  | get | clock | logic => exact ⟨[], by rw [List.append_nil]⟩
  | update o => exact ⟨[.update o], (History.after_concat ws _).symm⟩
  | updateStatus o => exact ⟨[.updateStatus o], (History.after_concat ws _).symm⟩

theorem Answered.get_eq {h h' : History S} {key : Key} {r : Except StoreError (Resource S)}
    (answered : Answered h (.get key) r h') : r = h.store.get key := by
  cases answered
  rfl

theorem Sound.step {ws : List (Write S)} (h : Sound logic wait a ws)
    (step : Step logic wait a m b) : ∃ vs, Sound logic wait b (ws ++ vs) := by
  cases step with
  | client w =>
    refine ⟨[w], ?_, h.leads, fun x hx key o ho => (h.seen x hx key o ho).concat _⟩
    rw [History.after_concat, ← h.written]
  | begin_ key =>
    refine ⟨[], by rw [List.append_nil]; exact h.written, fun w hw => ?_, fun w hw key o ho => ?_⟩
    · rcases List.mem_append.1 hw with hw | hw
      · exact h.leads w hw
      · rw [List.mem_singleton.1 hw]
        exact ⟨key, .here _⟩
    · rcases List.mem_append.1 hw with hw | hw
      · exact (h.seen w hw key o ho).concat _
      · rw [List.mem_singleton.1 hw] at ho
        cases ho
  | @ask i dialogue q next r h' at_ answered =>
    obtain ⟨vs, hvs⟩ := answered.writes h.written
    have hmem := List.mem_of_getElem? at_
    refine ⟨vs, hvs, fun w hw => ?_, fun w hw key o ho => ?_⟩
    · rcases List.mem_or_eq_of_mem_set hw with hw | rfl
      · exact h.leads w hw
      · obtain ⟨key, l⟩ := h.leads _ hmem
        exact ⟨key, l.concat r⟩
    · rcases List.mem_or_eq_of_mem_set hw with hw | rfl
      · exact (h.seen w hw key o ho).concat vs
      · rcases List.mem_append.1 ho with ho | ho
        · exact (h.seen _ hmem key o ho).concat vs
        · cases List.mem_singleton.1 ho
          refine ⟨ws, vs, rfl, ?_⟩
          rw [← h.written, ← Store.get_eq_ok]
          exact answered.get_eq.symm

theorem Run.sound (h : Run logic wait .empty a) : ∃ ws, Sound logic wait a ws := by
  induction h with
  | here => exact ⟨[], rfl, List.forall_mem_nil _, List.forall_mem_nil _⟩
  | step _ step ih =>
    obtain ⟨ws, sound⟩ := ih
    obtain ⟨vs, sound⟩ := sound.step step
    exact ⟨ws ++ vs, sound⟩

/-! ### Giving up -/

theorem Sound.gives_up {ws : List (Write S)} (h : Sound logic wait a ws) {w : Work S}
    (hw : w ∈ a.works) {written : Resource S} {next}
    (rest : w.rest = .ask (.update written) next) {d : Resource S}
    (stored : a.store.get? d.key = some d) (key : written.key = d.key)
    (version : written.version = d.version)
    (strips : ResourceKind.finalizer S ∉ written.metadata.finalizers) :
    ∃ o, w.GivesUp logic o ∧ o.key = d.key ∧ o.version = d.version ∧
      (a.history.log.length < 2 ^ 64 → o = d) := by
  obtain ⟨asked, leads⟩ := h.leads w hw
  rw [rest] at leads
  obtain ⟨o, t, dialogue, ⟨-, rfl⟩ | ⟨marked, -, rfl, cleaned⟩⟩ := Pass.update_of_run leads
  · exact absurd (o.mem_withFinalizer _) strips
  · refine ⟨o, ⟨marked, ⟨asked, t, dialogue, cleaned⟩, next, rest⟩, key, version, fun room => ?_⟩
    obtain ⟨before, later, rfl, seen⟩ := h.seen w hw asked o (by simp [dialogue])
    have same : asked = d.key := (History.keyed_after before asked o seen).symm.trans key
    subst same
    rw [h.written] at room
    rw [store, h.written] at stored
    -- the version is that of the stored object, so what was fetched is still current
    rcases History.current_or_retired_append room seen with current | retired
    · exact Option.some.inj (current.symm.trans stored)
    · exact absurd version.symm (retired.ne d.key d stored)

/-! ### Steps -/

/-- A step writes at most once, and a write that takes the finalizer of the kind from an object is
the update of a pass that gives this object up. -/
theorem Sound.step_history {ws : List (Write S)} (h : Sound logic wait a ws)
    (step : Step logic wait a m b) :
    b.history = a.history ∨
      ∃ w, b.history = a.history.write w ∧
        ∀ d, a.store.get? d.key = some d → d.hasOwnFinalizer = true →
          w.Strips d (ResourceKind.finalizer S) →
          ∃ id x o, m = .ask id ∧ a.works[id]? = some x ∧ x.GivesUp logic o ∧ o.key = d.key ∧
            o.version = d.version ∧ (a.history.log.length < 2 ^ 64 → o = d) := by
  cases step with
  | client w keeps =>
    exact .inr ⟨w, rfl, fun d stored own strips => absurd strips (keeps _ d stored own)⟩
  | begin_ => exact .inl rfl
  | @ask i dialogue q next r h' at_ answered =>
    cases answered with
    | get | clock | logic => exact .inl rfl
    | updateStatus o =>
      refine .inr ⟨_, rfl, fun d _ _ strips => ?_⟩
      obtain ⟨_, he, -⟩ := strips
      cases he
    | update written =>
      refine .inr ⟨_, rfl, fun d stored _ strips => ?_⟩
      obtain ⟨_, he, key, version, strips⟩ := strips
      cases he
      obtain ⟨o, up, known⟩ :=
        h.gives_up (List.mem_of_getElem? at_) rfl stored key version strips
      exact ⟨i, _, o, rfl, at_, up, known⟩

theorem Sound.step_fate {ws : List (Write S)} (h : Sound logic wait a ws)
    (step : Step logic wait a m b) {k : Key} {d : Resource S} (stored : a.store.get? k = some d) :
    ((∃ e, b.store.get? k = some e ∧ d.Becomes e) ∨ b.store.get? k = none) ∧
    (d.hasOwnFinalizer = true →
      (∃ e, b.store.get? k = some e ∧ e.hasOwnFinalizer = true) ∨
        ∃ id x o, m = .ask id ∧ a.works[id]? = some x ∧ x.GivesUp logic o ∧ o.key = k ∧
          o.version = d.version ∧ (a.history.log.length < 2 ^ 64 → o = d)) := by
  have keyed : a.store.Keyed := by
    rw [store, h.written]
    exact History.keyed_after ws
  obtain rfl := keyed k d stored
  rcases h.step_history step with same | ⟨w, written, gives⟩
  · have stored' : b.store.get? d.key = some d := by
      rw [store, same]
      exact stored
    exact ⟨.inl ⟨d, stored', .rfl⟩, fun own => .inl ⟨d, stored', own⟩⟩
  · have fate := (a.store.effect_write w).fate keyed stored
    have hb : b.store = (a.store.write w).store := by
      rw [store, written]
      rfl
    rw [← hb] at fate
    rcases fate with ⟨e, he, becomes, keeps⟩ | ⟨gone, strips⟩
    · refine ⟨.inl ⟨e, he, becomes⟩, fun own => ?_⟩
      rcases keeps _ (Resource.hasOwnFinalizer_iff.1 own) with own' | strips
      · exact .inl ⟨e, he, Resource.hasOwnFinalizer_iff.2 own'⟩
      · exact .inr (gives d stored own strips)
    · refine ⟨.inr gone, fun own => .inr ?_⟩
      exact gives d stored own (strips _ (Resource.hasOwnFinalizer_iff.1 own))

/-! ### Runs -/

theorem guarded_deletion (reached : Run logic wait .empty a) (run : Run logic wait a b) {k : Key}
    {c : Resource S} (stored : a.store.get? k = some c) :
    (c.hasOwnFinalizer = true →
      (∃ d, b.store.get? k = some d ∧ c.Becomes d ∧ d.hasOwnFinalizer = true) ∨
      ∃ p q id w o d, Run logic wait a p ∧ Step logic wait p (.ask id) q ∧ Run logic wait q b ∧
        p.store.get? k = some d ∧ c.Becomes d ∧ d.hasOwnFinalizer = true ∧
        p.works[id]? = some w ∧ w.GivesUp logic o ∧ o.key = k ∧ o.version = d.version ∧
        (p.history.log.length < 2 ^ 64 → o = d)) ∧
    ((∃ d, b.store.get? k = some d ∧ c.Becomes d) ∨
      ∃ p, Run logic wait a p ∧ Run logic wait p b ∧ p.store.get? k = none) := by
  induction run with
  | here => exact ⟨fun own => .inl ⟨c, stored, .rfl, own⟩, .inl ⟨c, stored, .rfl⟩⟩
  | @step b m e run step ih =>
    obtain ⟨ws, sound⟩ := (reached.trans run).sound
    have later {p : Site S} (h : Run logic wait p b) : Run logic wait p e := .step h step
    refine ⟨fun own => ?_, ?_⟩
    · rcases ih.1 own with ⟨d, hd, becomes, own'⟩ | ⟨p, q, id, w, o, d, ap, pq, qb, known⟩
      · obtain ⟨fate, kept⟩ := sound.step_fate step hd
        rcases kept own' with ⟨x, hx, ownx⟩ | ⟨id, w, o, rfl, hw, up, key, version, same⟩
        · rcases fate with ⟨y, hy, becomesy⟩ | gone
          · cases hx.symm.trans hy
            exact .inl ⟨x, hx, becomes.trans becomesy, ownx⟩
          · cases hx.symm.trans gone
        · exact .inr ⟨b, e, id, w, o, d, run, step, .here, hd, becomes, own', hw, up, key, version,
            same⟩
      · exact .inr ⟨p, q, id, w, o, d, ap, pq, later qb, known⟩
    · rcases ih.2 with ⟨d, hd, becomes⟩ | ⟨p, ap, pb, gone⟩
      · rcases (sound.step_fate step hd).1 with ⟨x, hx, becomesx⟩ | gone
        · exact .inl ⟨x, hx, becomes.trans becomesx⟩
        · exact .inr ⟨e, .step run step, .here, gone⟩
      · exact .inr ⟨p, ap, later pb, gone⟩

theorem guarded_deletion_released :
    ∃ (a b p : Site OrganizationSpec) (w : Work OrganizationSpec) (c o : Organization),
      a.store.get? ⟨"a", "b"⟩ = some c ∧ c.hasOwnFinalizer = true ∧
      Run Organization.logic ⟨0⟩ a p ∧ w ∈ p.works ∧ w.GivesUp Organization.logic o ∧
      o.key = ⟨"a", "b"⟩ ∧ Run Organization.logic ⟨0⟩ p b ∧ b.store.get? ⟨"a", "b"⟩ = none := by
  have keeps (w : Write OrganizationSpec) (hw : ∀ o, w ≠ .update o) (a : Site OrganizationSpec) :
      ∀ k c, a.store.get? k = some c → c.hasOwnFinalizer = true →
        ¬w.Strips c (ResourceKind.finalizer OrganizationSpec) :=
    fun _ _ _ _ ⟨o, ho, _⟩ => hw o ho
  have creates (o : Organization) :
      Run Organization.logic ⟨0⟩ .empty ⟨.after [.create ⟨1⟩ o], []⟩ :=
    .step .here (.client _ (keeps _ (by simp) _))
  have marks (h : History OrganizationSpec) :
      Run Organization.logic ⟨0⟩ ⟨h, []⟩ ⟨h.write (.delete .epoch ⟨"a", "b"⟩), []⟩ :=
    .step .here (.client _ (keeps _ (by simp) _))
  -- closed terms, so that the passes can be run by `rfl`
  have start := creates ((Resource.new "a" "b").withFinalizer "organization.org.nddr.yndd.io")
  have marked := marks (.after [.create ⟨1⟩
    ((Resource.new "a" "b").withFinalizer "organization.org.nddr.yndd.io")])
  have told := (marked.step (.begin_ ⟨"a", "b"⟩)).step (.ask (i := 0) rfl (.get ⟨"a", "b"⟩))
  have finished := told.step (.ask (i := 0) rfl (.update _))
  obtain ⟨guarded, -⟩ := guarded_deletion start finished (k := ⟨"a", "b"⟩) rfl
  rcases guarded rfl with ⟨d, hd, -⟩ | ⟨p, q, id, w, o, d, ap, pq, qb, -, -, -, hw, up, ho, -⟩
  · cases hd
  · exact ⟨_, _, p, w, _, o, rfl, rfl, ap, List.mem_of_getElem? hw, up, ho,
      (Run.step .here pq).trans qb, rfl⟩

end Site
end Tenancy
