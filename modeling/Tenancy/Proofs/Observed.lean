import Mathlib.Data.List.Basic
import Tenancy.Organization
import Tenancy.Proofs.Registers

/-! The observed state of an object, however its parts are noted. The first note brings it into
being and none begins it anew, so each part holds what was last noted of it. Main statement: what is
read of an object after any notes follows from the last one of the part, and nothing else of the
object is touched. -/

namespace Tenancy

inductive Note where
  | allocate
  | status (s : String)
  | reason (s : String)
  | registers (rs : Registers)
  | strategy (s : Option Strategy)

namespace Note

variable {α : Type}

def status? : Note → Option String
  | status s => some s
  | allocate | reason _ | registers _ | strategy _ => none

def reason? : Note → Option String
  | reason s => some s
  | allocate | status _ | registers _ | strategy _ => none

def registers? : Note → Option Registers
  | registers rs => some rs
  | allocate | status _ | reason _ | strategy _ => none

def strategy? : Note → Option (Option Strategy)
  | strategy s => some s
  | allocate | status _ | reason _ | registers _ => none

/-- What the last of the notes of a part says. -/
def last? (part : Note → Option α) (ns : List Note) : Option α :=
  (ns.filterMap part).getLast?

theorem last?_cons (part : Note → Option α) (n : Note) (ns : List Note) :
    last? part (n :: ns) = (last? part ns).or (part n) := by
  unfold last?
  cases h : part n with
  | none => rw [List.filterMap_cons_none h, Option.or_none]
  | some x => rw [List.filterMap_cons_some h, List.getLast?_cons, Option.or_some]

def revise (o : Observed) : Note → Observed
  | allocate => o
  | status s => { o with status := s }
  | reason s => { o with reason := s }
  | registers rs => { o with registers := rs.bindings }
  | strategy s => { o with strategy := s }

/-- A part that each note either sets or leaves is what was last noted of it. -/
theorem read_foldl_revise (read : Observed → α) (part : Note → Option α)
    (one : ∀ o n, read (revise o n) = (part n).getD (read o)) (o : Observed) (ns : List Note) :
    read (ns.foldl revise o) = (last? part ns).getD (read o) := by
  induction ns generalizing o with
  | nil => rfl
  | cons n ns ih => rw [List.foldl_cons, ih, one, last?_cons, Option.getD_or]

end Note

namespace Resource

variable {S : Type}

/-! ### Notes on an object -/

def note (r : Resource S) : Note → Resource S
  | .allocate => r.withObserved
  | .status s => r.setStatus s
  | .reason s => r.setReason s
  | .registers rs => r.setStateRegisters rs
  | .strategy s => r.setStateStrategy s

def noteAll (r : Resource S) (ns : List Note) : Resource S := ns.foldl note r

def answer? (r : Resource S) : Note → Option Bool
  | .allocate => some r.allocate.1
  | .status _ | .reason _ | .registers _ | .strategy _ => none

theorem note_eq (r : Resource S) (n : Note) : r.note n = r.setObserved (n.revise r.observed) := by
  cases n with
  | allocate =>
    obtain ⟨_, _, _, _, observed⟩ := r
    cases observed <;> rfl
  | status | reason | registers | strategy => rfl

theorem noteAll_setObserved (r : Resource S) (o : Observed) (ns : List Note) :
    (r.setObserved o).noteAll ns = r.setObserved (ns.foldl Note.revise o) := by
  induction ns generalizing o with
  | nil => rfl
  | cons n ns ih =>
    have first : (r.setObserved o).note n = r.setObserved (n.revise o) := note_eq _ n
    exact (congrArg (noteAll · ns) first).trans (ih _)

theorem noteAll_cons (r : Resource S) (n : Note) (ns : List Note) :
    r.noteAll (n :: ns) = r.setObserved ((n :: ns).foldl Note.revise r.observed) :=
  (congrArg (noteAll · ns) (r.note_eq n)).trans (r.noteAll_setObserved _ ns)

theorem observed_noteAll (r : Resource S) (ns : List Note) :
    (r.noteAll ns).observed = ns.foldl Note.revise r.observed := by
  cases ns with
  | nil => rfl
  | cons n ns =>
    rw [noteAll_cons]
    rfl

theorem allocated_noteAll (r : Resource S) (ns : List Note) :
    (r.noteAll ns).allocated = (!ns.isEmpty || r.allocated) := by
  cases ns with
  | nil => rfl
  | cons n ns =>
    rw [noteAll_cons]
    rfl

theorem noteAll_touches (r : Resource S) (ns : List Note) :
    ∃ observed, r.noteAll ns = { r with status := { r.status with observed } } := by
  cases ns with
  | nil => exact ⟨r.status.observed, rfl⟩
  | cons n ns => exact ⟨_, r.noteAll_cons n ns⟩

/-! ### Reading -/

variable {r : Resource S}

theorem observed_of_present {o : Observed} (h : r.status.observed = some o) : r.observed = o := by
  rw [observed, h, Option.getD_some]

theorem observed_of_absent (h : r.status.observed = none) : r.observed = .blank := by
  rw [observed, h, Option.getD_none]

theorem fst_allocate (r : Resource S) : r.allocate.1 = !r.allocated := by
  unfold allocate allocated
  cases r.status.observed <;> rfl

theorem withObserved_of_allocated (h : r.allocated = true) : r.withObserved = r := by
  obtain ⟨o, present⟩ := Option.isSome_iff_exists.1 h
  simp only [withObserved, allocate, present]

theorem statusText_of_allocated (h : r.allocated = true) : r.statusText = r.observed.status := by
  obtain ⟨o, present⟩ := Option.isSome_iff_exists.1 h
  rw [observed_of_present present, statusText, present]
  rfl

theorem statusText_noteAll (r : Resource S) (ns : List Note) :
    (r.noteAll ns).statusText = (Note.last? Note.status? ns).getD
      (if ns = [] ∨ r.allocated = true then r.statusText else "") := by
  cases ns with
  | nil => rfl
  | cons n ns =>
    have given : (r.noteAll (n :: ns)).allocated = true := r.allocated_noteAll (n :: ns)
    -- a blank state has the empty status, while none at all reads as unknown
    have before : r.observed.status =
        if n :: ns = [] ∨ r.allocated = true then r.statusText else "" := by
      simp only [List.cons_ne_nil, false_or]
      split
      · rename_i allocated
        exact (statusText_of_allocated allocated).symm
      · rename_i absent
        rw [observed_of_absent (Option.not_isSome_iff_eq_none.1 absent)]
        rfl
    rw [statusText_of_allocated given, observed_noteAll, ← before]
    exact Note.read_foldl_revise (·.status) _ (fun o n => by cases n <;> rfl) _ _

structure Reads (r : Resource S) (ns : List Note) (r' : Resource S) : Prop where
  status : r'.statusText = (Note.last? Note.status? ns).getD
    (if ns = [] ∨ r.allocated = true then r.statusText else "")
  reason : r'.reason = (Note.last? Note.reason? ns).getD r.reason
  registers : r'.stateRegisters = (Note.last? Note.registers? ns).getD r.stateRegisters
  strategy : r'.stateStrategy = (Note.last? Note.strategy? ns).getD r.stateStrategy
  present : ∀ o, r.status.observed = some o → r.statusText = o.status ∧ r.reason = o.reason ∧
    (∀ kind, r.stateRegisters[kind]? = Register.first? o.registers kind) ∧
    r.stateStrategy = o.strategy
  absent : r.status.observed = none → r.statusText = "unknown" ∧ r.reason = "" ∧
    r.stateRegisters = ∅ ∧ r.stateStrategy = none
  answer : r'.answer? .allocate = some (ns.isEmpty && !r.allocated)
  again : ns ≠ [] ∨ r.allocated = true → r'.note .allocate = r'
  untouched : r'.typeMeta = r.typeMeta ∧ r'.metadata = r.metadata ∧ r'.spec = r.spec ∧
    r'.status.conditions = r.status.conditions

/-- After any notes each part of the observed state reads as it was last noted, and as at first if
it was not; nothing is allocated twice, and nothing else of the object is touched. -/
theorem reads_as_noted (r : Resource S) (ns : List Note) : r.Reads ns (r.noteAll ns) where
  status := r.statusText_noteAll ns
  reason := by
    unfold reason
    rw [observed_noteAll]
    exact Note.read_foldl_revise (·.reason) _ (fun o n => by cases n <;> rfl) _ ns
  registers := by
    unfold stateRegisters
    rw [observed_noteAll]
    -- a set is read back from the list that it is kept in
    exact Note.read_foldl_revise (Registers.ofList ·.registers) _
      (fun o n => by cases n <;> simp [Note.revise, Note.registers?]) _ ns
  strategy := by
    unfold stateStrategy
    rw [observed_noteAll]
    exact Note.read_foldl_revise (·.strategy) _ (fun o n => by cases n <;> rfl) _ ns
  present o h := by
    have observed := observed_of_present h
    refine ⟨?_, congrArg (·.reason) observed, fun kind => ?_, congrArg (·.strategy) observed⟩
    · rw [statusText, h, Option.map_some, Option.getD_some]
    · rw [stateRegisters, observed, Registers.getElem?_ofList]
  absent h := by
    have observed := observed_of_absent h
    refine ⟨?_, congrArg (·.reason) observed, ?_, congrArg (·.strategy) observed⟩
    · rw [statusText, h]
      rfl
    · rw [stateRegisters, observed]
      rfl
  answer := by rw [answer?, fst_allocate, allocated_noteAll, Bool.not_or, Bool.not_not]
  again h := by
    refine withObserved_of_allocated ?_
    rw [allocated_noteAll]
    rcases h with some_ | allocated
    · simp [some_]
    · simp [allocated]
  untouched := by
    obtain ⟨_, touched⟩ := r.noteAll_touches ns
    rw [touched]
    exact ⟨rfl, rfl, rfl, rfl⟩

theorem reads_as_noted_late :
    let r : Organization := .new "a" "b"
    let ns : List Note := [.status "up", .allocate, .reason "lost", .status "down"]
    r.status.observed = none ∧ r.answer? .allocate = some true ∧
      (r.noteAll ns).statusText = "down" ∧ (r.noteAll ns).reason = "lost" ∧
      (r.noteAll ns).stateRegisters = ∅ ∧ (r.noteAll ns).answer? .allocate = some false ∧
      (r.noteAll ns).note .allocate = r.noteAll ns := by
  intro r ns
  have nothing : r.status.observed = none := rfl
  have reads := reads_as_noted r ns
  obtain ⟨-, -, registers, -⟩ := reads.absent nothing
  exact ⟨nothing, (reads_as_noted r []).answer, reads.status, reads.reason,
    reads.registers.trans registers, reads.answer, reads.again (.inl (List.cons_ne_nil _ _))⟩

end Resource
end Tenancy
