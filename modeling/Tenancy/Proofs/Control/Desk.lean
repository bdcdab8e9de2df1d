import Tenancy.Fanout
import Tenancy.Proofs.Deployment.Upkeep
import Tenancy.Proofs.Queue.Roster
import Tenancy.Proofs.Reconcile.Dialogue

/-! What matters of a running loop of deployments: the stores, the changes that it has not taken
yet, its queue, and the passes that its workers make. These stay in step: whoever works on a key has
got it from the queue, and nobody else has. -/

namespace Tenancy

open Stores

def Store.changes {S : Type} [ResourceKind S] (s : Store S) (w : Option (Write S)) :
    List (Change S) :=
  (w.bind fun w => (s.write w).change).toList

structure Desk where
  deps : Store DeploymentSpec
  orgs : Store OrganizationSpec
  own : List (Change DeploymentSpec)
  related : List (Change OrganizationSpec)
  arrived : List Key
  concerned : List Key
  queue : WorkQueue
  jobs : List (Option (Key × Pass DeploymentSpec Outcome))

namespace Desk

def stores (d : Desk) : Stores := ⟨d.deps, d.orgs⟩

abbrev Has (d : Desk) (i : Nat) (k : Key) (p : Pass DeploymentSpec Outcome) : Prop :=
  d.jobs[i]? = some (some (k, p))

def setJob (d : Desk) (i : Nat) (job : Option (Key × Pass DeploymentSpec Outcome)) : Desk :=
  { d with jobs := d.jobs.set i job }

/-- One step, and the pass that ends with it. Nobody but a pass writes the status of a deployment;
a pass may be stopped for no conclusion at all. -/
inductive Step (d : Desk) : Option (Key × Outcome) → Desk → Prop
  | rest : Step d none d
  | organization (w : Write OrganizationSpec) :
    Step d none { d with
      orgs := (d.orgs.write w).store, related := d.related ++ d.orgs.changes (some w) }
  | client (w : Write DeploymentSpec) (hw : ∀ o, w ≠ .updateStatus o) :
    Step d none { d with deps := (d.deps.write w).store, own := d.own ++ d.deps.changes (some w) }
  | add (k : Key) : Step d none { d with queue := (d.queue.add k).1 }
  | takeOwn {c own} (free : d.arrived = []) (next : d.own = c :: own) :
    Step d none { d with
      own, arrived := if c.generationChanged then c.objects.map (·.key) else [] }
  | arrive {k ks} (next : d.arrived = k :: ks) :
    Step d none { d with arrived := ks, queue := (d.queue.add k).1 }
  | concern {k ks} (next : d.concerned = k :: ks) :
    Step d none { d with concerned := ks, queue := (d.queue.add k).1 }
  | takeRelated {c related} (free : d.concerned = []) (next : d.related = c :: related) :
    Step d none { d with
      related, concerned := if c.generationChanged then Fanout.keys d.deps.list c else [] }
  | begin_ {i k} (wait : Span) (free : d.jobs[i]? = some none) (next : d.queue.pop.1 = .key k) :
    Step d none ({ d with queue := d.queue.pop.2 }.setJob i
      (some (k, Pass.run Deployment.logic .inStore wait k)))
  | ask {i k q} {next : q.Answer → Pass DeploymentSpec Outcome} {r : q.Answer} {a : Stores}
    (at_ : d.Has i k (.ask q next)) (asked : Asked d.stores q r a) :
    Step d none ({ d with
      deps := a.deps, orgs := a.orgs, own := d.own ++ d.deps.changes q.write? }.setJob i
        (some (k, next r)))
  | stop {i k p r} (at_ : d.Has i k p) (hr : ¬Outcome.Conclusive r) :
    Step d none (d.setJob i (some (k, .done r)))
  | finish {i k r} (at_ : d.Has i k (.done r)) :
    Step d (some (k, r)) ({ d with queue := (d.queue.done k).1 }.setJob i none)

/-! ### Order -/

/-- The collections are in step: a key that a worker has is in work, at no other worker, and the
pass keeps to it. -/
structure Tidy (d : Desk) : Prop where
  deps : d.deps.Keyed
  orgs : d.orgs.Keyed
  queue : d.queue.Consistent
  open_ : d.queue.closed = false
  held : ∀ i k p, d.Has i k p → k ∈ d.queue.processing
  unique : ∀ i j k p q, d.Has i k p → d.Has j k q → i = j
  keeps : ∀ i k p, d.Has i k p → Upholds k p none

variable {d d' : Desk} {f : Option (Key × Outcome)}

theorem has_setJob {i j : Nat} {k : Key} {p : Pass DeploymentSpec Outcome}
    {job : Option (Key × Pass DeploymentSpec Outcome)} (h : (d.setJob i job).Has j k p) :
    i = j ∧ job = some (k, p) ∨ i ≠ j ∧ d.Has j k p :=
  Roster.of_set h

theorem has_setJob_self {i : Nat} {k : Key} {x : Option (Key × Pass DeploymentSpec Outcome)}
    (h : d.jobs[i]? = some x) (p : Pass DeploymentSpec Outcome) :
    (d.setJob i (some (k, p))).Has i k p :=
  List.getElem?_set_self (List.getElem?_eq_some_iff.1 h).1

theorem has_setJob_of_ne {i j : Nat} {k : Key} {p : Pass DeploymentSpec Outcome}
    {job : Option (Key × Pass DeploymentSpec Outcome)} (hi : i ≠ j) (h : d.Has j k p) :
    (d.setJob i job).Has j k p :=
  (List.getElem?_set_ne hi).trans h

theorem Tidy.of_jobs (h : d.Tidy) (jobs : d'.jobs = d.jobs) (deps : d'.deps.Keyed)
    (orgs : d'.orgs.Keyed) (queue : d'.queue.Consistent) (open_ : d'.queue.closed = false)
    (processing : d'.queue.processing = d.queue.processing) : d'.Tidy := by
  have has {i : Nat} {k : Key} {p : Pass DeploymentSpec Outcome} (hp : d'.Has i k p) :
      d.Has i k p := by
    rwa [Has, jobs] at hp
  exact ⟨deps, orgs, queue, open_, fun i k p hp => processing ▸ h.held i k p (has hp),
    fun i j k p q hp hq => h.unique i j k p q (has hp) (has hq),
    fun i k p hp => h.keeps i k p (has hp)⟩

theorem Tidy.of_queue (h : d.Tidy) {q : WorkQueue} (queue : q.Consistent)
    (open_ : q.closed = false) (processing : q.processing = d.queue.processing) :
    Tidy { d with queue := q } :=
  h.of_jobs rfl h.deps h.orgs queue open_ processing

theorem Tidy.roster (h : d.Tidy) : Roster d.queue d.jobs := ⟨h.queue, h.held, h.unique⟩

theorem Tidy.setJob (h : d.Tidy) {i : Nat} {k : Key} {p q : Pass DeploymentSpec Outcome}
    (at_ : d.Has i k p) (keeps : Upholds k q none) : (d.setJob i (some (k, q))).Tidy := by
  have roster := h.roster.go_on at_ q
  refine ⟨h.deps, h.orgs, h.queue, h.open_, roster.held, roster.unique, fun j l r hr => ?_⟩
  rcases has_setJob hr with ⟨-, he⟩ | ⟨-, hr⟩
  · cases he
    exact keeps
  · exact h.keeps j l r hr

theorem Tidy.begin_ (h : d.Tidy) {i : Nat} {k : Key} (wait : Span)
    (next : d.queue.pop.1 = .key k) :
    ({ d with queue := d.queue.pop.2 }.setJob i
      (some (k, Pass.run Deployment.logic .inStore wait k))).Tidy := by
  have next : d.queue.pop = (.key k, d.queue.pop.2) := by rw [← next]
  obtain ⟨-, open_, -⟩ := WorkQueue.pop_key next
  have roster := h.roster.begin_ next i (Pass.run Deployment.logic .inStore wait k)
  refine ⟨h.deps, h.orgs, roster.queue, open_, roster.held, roster.unique, fun j l r hr => ?_⟩
  rcases has_setJob hr with ⟨-, he⟩ | ⟨-, hr⟩
  · cases he
    exact upholds_run wait none
  · exact h.keeps j l r hr

theorem Tidy.finish (h : d.Tidy) {i : Nat} {k : Key} {r : Outcome} (at_ : d.Has i k (.done r)) :
    ({ d with queue := (d.queue.done k).1 }.setJob i none).Tidy := by
  have roster := h.roster.finish at_
  refine ⟨h.deps, h.orgs, roster.queue, (WorkQueue.closed_done d.queue k).trans h.open_,
    roster.held, roster.unique, fun j l p hp => ?_⟩
  rcases has_setJob hp with ⟨-, he⟩ | ⟨-, hp⟩
  · cases he
  · exact h.keeps j l p hp

theorem keyed_write {S : Type} [ResourceKind S] {s : Store S} (h : s.Keyed) (w : Write S) :
    (s.write w).store.Keyed :=
  (Store.turn_write h w).keyed h

theorem keyed_asked {a b : Stores} {q : Request DeploymentSpec} {r : q.Answer}
    (asked : Asked a q r b) (deps : a.deps.Keyed) (orgs : a.orgs.Keyed) :
    b.deps.Keyed ∧ b.orgs.Keyed := by
  cases asked with
  | update o => exact ⟨keyed_write deps (.update o), orgs⟩
  | updateStatus o => exact ⟨keyed_write deps (.updateStatus o), orgs⟩
  | get | clock | organizations | logic => exact ⟨deps, orgs⟩

theorem Tidy.step (h : d.Tidy) (step : Step d f d') : d'.Tidy := by
  cases step with
  | rest => exact h
  | organization w =>
    exact h.of_jobs rfl h.deps (keyed_write h.orgs w) h.queue h.open_ rfl
  | client w => exact h.of_jobs rfl (keyed_write h.deps w) h.orgs h.queue h.open_ rfl
  | add k =>
    exact h.of_queue (h.queue.add k) ((WorkQueue.closed_add _ k).trans h.open_)
      (WorkQueue.processing_add _ k)
  | takeOwn => exact h.of_jobs rfl h.deps h.orgs h.queue h.open_ rfl
  | @arrive k ks next =>
    exact h.of_jobs rfl h.deps h.orgs (h.queue.add k) ((WorkQueue.closed_add _ k).trans h.open_)
      (WorkQueue.processing_add _ k)
  | @concern k ks next =>
    exact h.of_jobs rfl h.deps h.orgs (h.queue.add k) ((WorkQueue.closed_add _ k).trans h.open_)
      (WorkQueue.processing_add _ k)
  | takeRelated => exact h.of_jobs rfl h.deps h.orgs h.queue h.open_ rfl
  | begin_ wait free next => exact h.begin_ wait next
  | @ask i k q next r a at_ asked =>
    have keyed := keyed_asked asked h.deps h.orgs
    have written : Tidy { d with
        deps := a.deps, orgs := a.orgs, own := d.own ++ d.deps.changes q.write? } :=
      h.of_jobs rfl keyed.1 keyed.2 h.queue h.open_ rfl
    -- nothing need be known of the stores for a pass to keep to its key
    have keeps := (h.keeps i k _ at_).2 r none (.lost (asked.apt h.deps))
    exact written.setJob at_ keeps
  | stop at_ => exact h.setJob at_ fun _ _ ha => by cases ha
  | finish at_ => exact h.finish at_

theorem Step.of_jobs_nil (step : Step d f d') (jobs : d.jobs = []) :
    d'.jobs = [] ∧ d'.queue.processing = d.queue.processing := by
  have none_at (i : Nat) : d.jobs[i]? = none := by rw [jobs, List.getElem?_nil]
  cases step with
  | rest | organization | client | takeOwn | takeRelated => exact ⟨jobs, rfl⟩
  | add | arrive | concern => exact ⟨jobs, WorkQueue.processing_add _ _⟩
  | @begin_ i k wait free =>
    rw [none_at i] at free
    cases free
  | @ask i _ _ _ _ _ at_ | @stop i _ _ _ at_ | @finish i _ _ at_ =>
    have := (none_at i).symm.trans at_
    cases this

end Desk
end Tenancy
