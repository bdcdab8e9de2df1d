import Tenancy.Proofs.Control.Crew
import Tenancy.Proofs.Control.Desk
import Tenancy.Proofs.Fanout

/-! Attention. Every deployment is looked after in every state of a desk: a change that concerns it
is under way to the queue, or it is dirty, or a pass that was not disturbed is at work on it, or it
shows the right thing already. -/

namespace Tenancy

namespace Change

variable {S : Type}

theorem quiet_of_not_loud [BEq S] {cs : List (Change S)} {P : Key → Prop}
    (h : ¬∃ c ∈ cs, c.generationChanged = true ∧ P c.key) :
    ∀ c ∈ cs, P c.key → c.generationChanged = false := by
  intro c hc hp
  rw [← Bool.not_eq_true]
  exact fun changed => h ⟨c, hc, changed, hp⟩

end Change

namespace Desk

open Stores

variable {d d' : Desk} {f : Option (Key × Outcome)}

/-- A change that concerns the deployment is on its way to the queue, or has got there. Changes of
organizations concern it only while it is there. -/
def Due (d : Desk) (k : Key) : Prop :=
  (∃ c ∈ d.own, c.generationChanged = true ∧ c.key = k) ∨
  (d.deps.get? k ≠ none ∧
    ∃ c ∈ d.related, c.generationChanged = true ∧ c.key.name = k.organization) ∨
  (k ∈ d.arrived ∨ k ∈ d.concerned) ∨ k ∈ d.queue.dirty

/-- The deployment is due, or a pass that was not disturbed is at work on it, or it is at rest as
its last pass has left it. -/
def Attended (d : Desk) (last : Key → Option Outcome) (k : Key) : Prop :=
  d.Due k ∨ (∃ i p, d.Has i k p ∧ Upholds k p (some d.stores)) ∨
    k ∉ d.queue.processing ∧ ∀ r, last k = some r → r.Conclusive → Fulfilled k d.stores

variable {last : Key → Option Outcome} {k : Key}

theorem Attended.of_untouched (h : d.Attended last k) (u : Untouched k d.stores d'.stores)
    (jobs : d'.jobs = d.jobs) (processing : d'.queue.processing = d.queue.processing)
    (due : d.Due k → d'.Due k) : d'.Attended last k := by
  rcases h with h | ⟨i, p, has, upholds⟩ | ⟨idle, right⟩
  · exact .inl (due h)
  · refine .inr (.inl ⟨i, p, ?_, upholds.untouched u⟩)
    rwa [Has, jobs]
  · refine .inr (.inr ⟨processing ▸ idle, fun r hr hc => ?_⟩)
    exact (right r hr hc).untouched u

theorem Tidy.untouched (h : d.Tidy) : Untouched k d.stores d.stores := .refl h.deps h.orgs

theorem Attended.organization (h : d.Attended last k) (tidy : d.Tidy) (w : Write OrganizationSpec) :
    Attended { d with
      orgs := (d.orgs.write w).store, related := d.related ++ d.orgs.changes (some w) } last k := by
  by_cases loud : d.deps.get? k ≠ none ∧ ∃ c ∈ d.orgs.changes (some w),
      c.generationChanged = true ∧ c.key.name = k.organization
  · obtain ⟨present, c, hc, known⟩ := loud
    exact .inl (.inr (.inl ⟨present, c, List.mem_append_right _ hc, known⟩))
  -- if the deployment is there, the organizations of its name stay alike
  have alike : Alike k d.stores ⟨d.deps, (d.orgs.write w).store⟩ := by
    refine ⟨⟨⟨tidy.deps, tidy.orgs⟩, tidy.deps, keyed_write tidy.orgs w⟩,
      Resource.Like.option_refl _, fun present l hl => ?_⟩
    have quiet := Change.quiet_of_not_loud (P := fun x => x.name = k.organization)
      fun told => loud ⟨present, told⟩
    refine Store.like_of_quiet tidy.orgs fun c hc key => ?_
    exact quiet c (Option.mem_toList.2 hc) (key ▸ hl)
  refine h.of_untouched ⟨alike, rfl⟩ rfl rfl ?_
  rintro (own | ⟨present, c, hc, known⟩ | rest)
  · exact .inl own
  · exact .inr (.inl ⟨present, c, List.mem_append_left _ hc, known⟩)
  · exact .inr (.inr rest)

theorem Due.write {w : Option (Write DeploymentSpec)} {a : Stores} (h : d.Due k)
    (alike : Alike k d.stores a) :
    Due { d with deps := a.deps, orgs := a.orgs, own := d.own ++ d.deps.changes w } k := by
  rcases h with ⟨c, hc, known⟩ | ⟨present, known⟩ | rest
  · exact .inl ⟨c, List.mem_append_left _ hc, known⟩
  · -- a deployment that vanishes makes it known, and is due for that
    exact .inr (.inl ⟨alike.present.1 present, known⟩)
  · exact .inr (.inr rest)

theorem alike_write (tidy : d.Tidy) (w : Write DeploymentSpec)
    (quiet : ∀ c ∈ d.deps.changes (some w), c.key = k → c.generationChanged = false) :
    Alike k d.stores ⟨(d.deps.write w).store, d.orgs⟩ := by
  refine ⟨⟨⟨tidy.deps, tidy.orgs⟩, keyed_write tidy.deps w, tidy.orgs⟩, ?_,
    fun _ _ _ => Resource.Like.option_refl _⟩
  exact Store.like_of_quiet tidy.deps fun c hc => quiet c (Option.mem_toList.2 hc)

theorem untouched_write (tidy : d.Tidy) (w : Write DeploymentSpec)
    (quiet : ∀ c ∈ d.deps.changes (some w), c.key = k → c.generationChanged = false)
    (hw : ∀ o, w = .updateStatus o → o.key ≠ k) :
    Untouched k d.stores ⟨(d.deps.write w).store, d.orgs⟩ :=
  ⟨alike_write tidy w quiet,
    Store.observed_of_quiet tidy.deps hw fun c hc => quiet c (Option.mem_toList.2 hc)⟩

theorem Attended.client (h : d.Attended last k) (tidy : d.Tidy) {w : Write DeploymentSpec}
    (hw : ∀ o, w ≠ .updateStatus o) :
    Attended { d with
      deps := (d.deps.write w).store, own := d.own ++ d.deps.changes (some w) } last k := by
  by_cases loud : ∃ c ∈ d.deps.changes (some w), c.generationChanged = true ∧ c.key = k
  · obtain ⟨c, hc, known⟩ := loud
    exact .inl (.inl ⟨c, List.mem_append_right _ hc, known⟩)
  have quiet := Change.quiet_of_not_loud (P := (· = k)) loud
  have untouched := untouched_write tidy w quiet fun o ho => absurd ho (hw o)
  exact h.of_untouched untouched rfl rfl fun due => due.write untouched.toAlike

/-! The questions of a pass. -/

theorem asked_alike {q : Request DeploymentSpec} {r : q.Answer} {a : Stores} (tidy : d.Tidy)
    (asked : Asked d.stores q r a)
    (quiet : ∀ c ∈ d.deps.changes q.write?, c.key = k → c.generationChanged = false) :
    Alike k d.stores a := by
  cases asked with
  | get | clock | organizations | logic => exact .refl tidy.deps tidy.orgs
  | update o => exact alike_write tidy (.update o) quiet
  | updateStatus o => exact alike_write tidy (.updateStatus o) quiet

theorem asked_untouched {q : Request DeploymentSpec} {r : q.Answer} {a : Stores} {l : Key}
    (tidy : d.Tidy) (asked : Asked d.stores q r a) (about : q.About l) (hl : l ≠ k)
    (quiet : ∀ c ∈ d.deps.changes q.write?, c.key = k → c.generationChanged = false) :
    Untouched k d.stores a := by
  cases asked with
  | get | clock | organizations | logic => exact tidy.untouched
  | update o =>
    refine untouched_write tidy (.update o) quiet ?_
    intro _ ho
    cases ho
  | updateStatus o =>
    refine untouched_write tidy (.updateStatus o) quiet ?_
    rintro _ ⟨⟩ key
    exact hl (about.symm.trans key)

theorem Attended.ask (h : d.Attended last k) (tidy : d.Tidy) {i : Nat} {l : Key}
    {q : Request DeploymentSpec} {next : q.Answer → Pass DeploymentSpec Outcome} {r : q.Answer}
    {a : Stores} (at_ : d.Has i l (.ask q next)) (asked : Asked d.stores q r a) :
    Attended ({ d with
      deps := a.deps, orgs := a.orgs, own := d.own ++ d.deps.changes q.write? }.setJob i
        (some (l, next r))) last k := by
  by_cases loud : ∃ c ∈ d.deps.changes q.write?, c.generationChanged = true ∧ c.key = k
  · obtain ⟨c, hc, known⟩ := loud
    exact .inl (.inl ⟨c, List.mem_append_right _ hc, known⟩)
  have quiet := Change.quiet_of_not_loud (P := (· = k)) loud
  have alike := asked_alike tidy asked quiet
  have untouched (hl : l ≠ k) : Untouched k d.stores a :=
    asked_untouched tidy asked (tidy.keeps i l _ at_).1 hl quiet
  rcases h with due | ⟨j, p, has, upholds⟩ | ⟨idle, right⟩
  · exact .inl (due.write alike)
  · by_cases hi : i = j
    · subst hi
      cases at_.symm.trans has
      exact .inr (.inl ⟨i, next r, has_setJob_self has _, upholds.asked asked alike⟩)
    · -- another pass is over another key
      have hl : l ≠ k := fun hl => hi (tidy.unique i j k _ p (hl ▸ at_) has)
      exact .inr (.inl ⟨j, p, has_setJob_of_ne hi has, upholds.untouched (untouched hl)⟩)
  · have hl : l ≠ k := fun hl => idle (hl ▸ tidy.held i l _ at_)
    exact .inr (.inr ⟨idle, fun r hr hc => (right r hr hc).untouched (untouched hl)⟩)

theorem Attended.takeOwn (h : d.Attended last k) (tidy : d.Tidy) {c : Change DeploymentSpec}
    {own : List (Change DeploymentSpec)} (free : d.arrived = []) (next : d.own = c :: own) :
    Attended { d with
      own, arrived := if c.generationChanged then c.objects.map (·.key) else [] } last k := by
  refine h.of_untouched tidy.untouched rfl rfl ?_
  rintro (⟨b, hb, changed, key⟩ | related | (arrived | concerned) | dirty)
  · rw [next, List.mem_cons] at hb
    rcases hb with rfl | hb
    · refine .inr (.inr (.inl (.inl ?_)))
      dsimp only
      rw [if_pos changed, ← key]
      exact List.mem_map_of_mem b.latest_mem_objects
    · exact .inl ⟨b, hb, changed, key⟩
  · exact .inr (.inl related)
  · rw [free] at arrived
    cases arrived
  · exact .inr (.inr (.inl (.inr concerned)))
  · exact .inr (.inr (.inr dirty))

theorem Attended.add (h : d.Attended last k) (tidy : d.Tidy) {l : Key}
    {arrived concerned : List Key}
    (queued : ∀ x, x ∈ d.arrived ∨ x ∈ d.concerned →
      (x ∈ arrived ∨ x ∈ concerned) ∨ x = l) :
    Attended { d with arrived, concerned, queue := (d.queue.add l).1 } last k := by
  refine h.of_untouched tidy.untouched rfl (WorkQueue.processing_add _ l) ?_
  rintro (own | related | taken | dirty)
  · exact .inl own
  · exact .inr (.inl related)
  · rcases queued k taken with taken | rfl
    · exact .inr (.inr (.inl taken))
    · exact .inr (.inr (.inr (WorkQueue.mem_dirty_add.2 (.inr ⟨tidy.open_, rfl⟩))))
  · exact .inr (.inr (.inr (WorkQueue.mem_dirty_add.2 (.inl dirty))))

theorem Attended.arrive (h : d.Attended last k) (tidy : d.Tidy) {l : Key} {ls : List Key}
    (next : d.arrived = l :: ls) :
    Attended { d with arrived := ls, queue := (d.queue.add l).1 } last k := by
  refine h.add tidy fun x taken => ?_
  rw [next, List.mem_cons] at taken
  rcases taken with (rfl | arrived) | concerned
  · exact .inr rfl
  · exact .inl (.inl arrived)
  · exact .inl (.inr concerned)

theorem Attended.concern (h : d.Attended last k) (tidy : d.Tidy) {l : Key} {ls : List Key}
    (next : d.concerned = l :: ls) :
    Attended { d with concerned := ls, queue := (d.queue.add l).1 } last k := by
  refine h.add tidy fun x taken => ?_
  rw [next, List.mem_cons] at taken
  rcases taken with arrived | rfl | concerned
  · exact .inl (.inl arrived)
  · exact .inr rfl
  · exact .inl (.inr concerned)

theorem Attended.takeRelated (h : d.Attended last k) (tidy : d.Tidy)
    {c : Change OrganizationSpec} {related : List (Change OrganizationSpec)}
    (free : d.concerned = []) (next : d.related = c :: related) :
    Attended { d with
      related, concerned := if c.generationChanged then Fanout.keys d.deps.list c else [] }
      last k := by
  refine h.of_untouched tidy.untouched rfl rfl ?_
  rintro (own | ⟨present, b, hb, changed, name⟩ | (arrived | concerned) | dirty)
  · exact .inl own
  · rw [next, List.mem_cons] at hb
    rcases hb with rfl | hb
    · refine .inr (.inr (.inl (.inr ?_)))
      dsimp only
      -- the deployment is still there, so that it is found by the name
      rw [if_pos changed, Fanout.mem_keys]
      obtain ⟨e, he⟩ := Option.ne_none_iff_exists'.1 present
      have key : e.key = k := tidy.deps k e he
      refine ⟨b.latest, b.latest_mem_objects, e, (Store.mem_list tidy.deps).2 (key ▸ he), ?_, key⟩
      show e.key.organization = b.key.name
      rw [key, name]
    · exact .inr (.inl ⟨present, b, hb, changed, name⟩)
  · exact .inr (.inr (.inl (.inl arrived)))
  · rw [free] at concerned
    cases concerned
  · exact .inr (.inr (.inr dirty))

theorem Attended.begin_ (h : d.Attended last k) {i : Nat} {l : Key} (wait : Span)
    (free : d.jobs[i]? = some none) (next : d.queue.pop.1 = .key l) :
    Attended ({ d with queue := d.queue.pop.2 }.setJob i
      (some (l, Pass.run Deployment.logic .inStore wait l))) last k := by
  obtain ⟨-, -, -, dirty, processing⟩ :=
    WorkQueue.pop_key (r := d.queue.pop.2) (k := l) (by rw [← next])
  by_cases hl : l = k
  · -- a pass that begins has read nothing, so that nothing of it can be stale
    subst hl
    exact .inr (.inl ⟨i, _, has_setJob_self free _, upholds_run wait _⟩)
  · rcases h with due | ⟨j, p, has, upholds⟩ | ⟨idle, right⟩
    · left
      rcases due with own | related | taken | hd
      · exact .inl own
      · exact .inr (.inl related)
      · exact .inr (.inr (.inl taken))
      · exact .inr (.inr (.inr ((dirty k).2 ⟨hd, Ne.symm hl⟩)))
    · refine .inr (.inl ⟨j, p, has_setJob_of_ne ?_ has, upholds⟩)
      rintro rfl
      cases free.symm.trans has
    · refine .inr (.inr ⟨fun hp => ?_, right⟩)
      rcases (processing k).1 hp with hp | hp
      · exact idle hp
      · exact hl hp.symm

theorem Attended.stop (h : d.Attended last k) {i : Nat} {l : Key} {p : Pass DeploymentSpec Outcome}
    {r : Outcome} (at_ : d.Has i l p) (hr : ¬r.Conclusive) :
    Attended (d.setJob i (some (l, .done r))) last k := by
  rcases h with due | ⟨j, q, has, upholds⟩ | rest
  · exact .inl due
  · by_cases hi : i = j
    · subst hi
      cases at_.symm.trans has
      exact .inr (.inl ⟨i, _, has_setJob_self has _, fun hc => absurd hc hr⟩)
    · exact .inr (.inl ⟨j, q, has_setJob_of_ne hi has, upholds⟩)
  · exact .inr (.inr rest)

def record (last : Key → Option Outcome) : Option (Key × Outcome) → Key → Option Outcome
  | none, l => last l
  | some (k, r), l => if l = k then some r else last l

theorem Attended.finish (h : d.Attended last k) (tidy : d.Tidy) {i : Nat} {l : Key} {r : Outcome}
    (at_ : d.Has i l (.done r)) :
    Attended ({ d with queue := (d.queue.done l).1 }.setJob i none)
      (record last (some (l, r))) k := by
  rcases h with due | ⟨j, p, has, upholds⟩ | ⟨idle, right⟩
  · left
    rcases due with own | related | taken | dirty
    · exact .inl own
    · exact .inr (.inl related)
    · exact .inr (.inr (.inl taken))
    · exact .inr (.inr (.inr (by rwa [setJob, WorkQueue.dirty_done])))
  · by_cases hi : i = j
    · subst hi
      cases at_.symm.trans has
      refine .inr (.inr ⟨fun hp => (WorkQueue.mem_processing_done.1 hp).2 rfl, fun r' hr' hc => ?_⟩)
      rw [record, if_pos rfl] at hr'
      cases hr'
      exact upholds hc _ rfl
    · exact .inr (.inl ⟨j, p, has_setJob_of_ne hi has, upholds⟩)
  · have hl : k ≠ l := fun hl => idle (hl ▸ tidy.held i l _ at_)
    refine .inr (.inr ⟨fun hp => idle (WorkQueue.mem_processing_done.1 hp).1, fun r' hr' hc => ?_⟩)
    rw [record, if_neg hl] at hr'
    exact right r' hr' hc

theorem Attended.step (h : d.Attended last k) (tidy : d.Tidy) (step : Step d f d') :
    d'.Attended (record last f) k := by
  cases step with
  | rest => exact h
  | organization w => exact h.organization tidy w
  | client w hw => exact h.client tidy hw
  | add => exact h.add tidy fun _ => Or.inl
  | takeOwn free next => exact h.takeOwn tidy free next
  | arrive next => exact h.arrive tidy next
  | concern next => exact h.concern tidy next
  | takeRelated free next => exact h.takeRelated tidy free next
  | begin_ wait free next => exact h.begin_ wait free next
  | ask at_ asked => exact h.ask tidy at_ asked
  | stop at_ hr => exact h.stop at_ hr
  | finish at_ => exact h.finish tidy at_

theorem Attended.at_rest (h : d.Attended last k) (tidy : d.Tidy) (own : d.own = [])
    (related : d.related = []) (arrived : d.arrived = []) (concerned : d.concerned = [])
    (clean : k ∉ d.queue.dirty) (idle : k ∉ d.queue.processing) {r : Outcome}
    (hr : last k = some r) (hc : r.Conclusive) : Fulfilled k d.stores := by
  rcases h with (⟨c, hc, -⟩ | ⟨-, c, hc, -⟩ | (hc | hc) | hd) | ⟨i, p, has, -⟩ | ⟨-, right⟩
  · rw [own] at hc
    cases hc
  · rw [related] at hc
    cases hc
  · rw [arrived] at hc
    cases hc
  · rw [concerned] at hc
    cases hc
  · exact absurd hd clean
  · exact absurd (tidy.held i k p has) idle
  · exact right r hr hc

end Desk
end Tenancy
