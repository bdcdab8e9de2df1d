import Tenancy.Proofs.Queue.Waking

/-! Who sits in a lobby. Between two turns at the queue everyone in the lobby is suspended there:
whoever comes to the queue either leaves it again or is suspended, and what happens to the others
moves nobody. -/

namespace Tenancy.Lobby

variable {l : Lobby} {id : Nat}

def seats (l : Lobby) : List (Nat × Bool) := l.waiters.map fun w => (w.id, w.suspended)

def Absent (l : Lobby) (id : Nat) : Prop := ∀ w ∈ l.waiters, w.id ≠ id

theorem mem_seats {b : Bool} :
    (id, b) ∈ l.seats ↔ ∃ w ∈ l.waiters, w.id = id ∧ w.suspended = b := by
  simp [seats]

theorem absent_of_seats (h : ∀ b, (id, b) ∉ l.seats) : l.Absent id :=
  fun w hw same => h w.suspended (mem_seats.2 ⟨w, hw, same, rfl⟩)

@[simp] theorem seats_ring (l : Lobby) : l.ring.seats = l.seats := by
  rcases l.ring_cases with ⟨before, v, after, waiters, -, ring⟩ | ⟨-, ring⟩
  · simp [seats, ring, waiters]
  · rw [ring]
    rfl

@[simp] theorem seats_ringIf (l : Lobby) (joined : Bool) : (l.ringIf joined).seats = l.seats := by
  unfold ringIf
  split
  · exact seats_ring l
  · rfl

theorem seats_add (l : Lobby) (k : Key) : (l.add k).seats = l.seats := seats_ringIf _ _

theorem seats_done (l : Lobby) (k : Key) : (l.done k).seats = l.seats := seats_ringIf _ _

theorem seats_shutDown (l : Lobby) : l.shutDown.seats = l.seats := by
  simp [seats, shutDown]

theorem seats_drop (l : Lobby) (id : Nat) : (l.drop id).seats = l.seats.filter (·.1 != id) := by
  rw [seats, seats, drop, List.filter_map]
  rfl

theorem absent_drop (l : Lobby) (id : Nat) : (l.drop id).Absent id :=
  fun _ hw => (mem_drop.1 hw).2

/-! ### Turns at the queue -/

theorem find?_enter (absent : l.Absent id) :
    (l.enter id).find? id = some ⟨id, if l.kept then some .kept else none, false⟩ := by
  unfold find? enter
  rw [List.find?_append, List.find?_eq_none.2 fun w hw => by simpa using absent w hw]
  simp

theorem drop_enter (absent : l.Absent id) : (l.enter id).drop id = { l with kept := false } := by
  unfold drop enter
  rw [List.filter_append, List.filter_eq_self.2 fun w hw => by simpa using absent w hw]
  simp

theorem leave_enter (absent : l.Absent id) : (l.enter id).leave id = { l with kept := false } := by
  unfold leave
  rw [find?_enter absent, drop_enter absent]
  cases l.kept <;> rfl

theorem pop_of_closed (absent : l.Absent id) (closed : l.queue.closed = true) :
    l.pop id = (.closed, { l with kept := false }) := by
  have look : (l.enter id).look id = (.closed, { l with kept := false }) := by
    have popped : (l.enter id).queue.pop = (.closed, l.queue) := WorkQueue.pop_of_closed closed
    unfold Lobby.look
    rw [popped]
    dsimp only
    rw [leave_enter absent]
  unfold pop
  rw [look]

theorem seats_leave (l : Lobby) (id : Nat) :
    (l.leave id).seats = l.seats.filter (·.1 != id) := by
  unfold leave
  cases found : l.find? id with
  | some w =>
    dsimp only
    rw [seats_ringIf, seats_drop]
  | none =>
    refine (List.filter_eq_self.2 fun p hp => ?_).symm
    obtain ⟨w, hw, rfl⟩ := List.mem_map.1 hp
    simpa using List.find?_eq_none.1 found w hw

theorem seats_suspend (absent : l.Absent id) :
    ((l.enter id).suspend id).seats = l.seats ++ [(id, true)] := by
  have others : (l.waiters.map fun w => if w.id = id then { w with suspended := true } else w) =
      l.waiters := by
    rw [List.map_congr_left fun w hw => if_neg (absent w hw), List.map_id']
  unfold seats suspend enter
  dsimp only
  rw [List.map_append, others, List.map_append]
  simp

theorem look_enter (absent : l.Absent id) (unkept : l.kept = false)
    (nothing : l.queue.pop.1 = .nothing) :
    (l.enter id).look id = (.suspended, (l.enter id).suspend id) := by
  have popped : (l.enter id).queue.pop = (.nothing, l.queue.pop.2) := Prod.ext nothing rfl
  unfold look
  rw [popped]
  dsimp only
  rw [find?_enter absent, unkept]
  rfl

theorem seats_pop (absent : l.Absent id) :
    (l.pop id).1 = .suspended ∧ (l.pop id).2.seats = l.seats ++ [(id, true)] ∨
      (l.pop id).1 ≠ .suspended ∧ (l.pop id).1 ≠ .again ∧ (l.pop id).2.seats = l.seats := by
  cases popped : l.queue.pop.1 with
  | closed =>
    have closed : l.queue.closed = true := WorkQueue.closed_of_pop (Prod.ext popped rfl)
    rw [pop_of_closed absent closed]
    exact .inr ⟨nofun, nofun, rfl⟩
  | key k =>
    have popped : (l.enter id).queue.pop = (.key k, l.queue.pop.2) := Prod.ext popped rfl
    have look : (l.enter id).look id = (.key k,
        ({ l.enter id with queue := l.queue.pop.2 }.ringIf
          (!l.queue.pop.2.queue.isEmpty)).leave id) := by
      unfold look
      rw [popped]
    unfold pop
    rw [look]
    refine .inr ⟨nofun, nofun, ?_⟩
    rw [seats_leave, seats_ringIf]
    -- of those who are inside only the one who has just entered goes
    have entered : seats { l.enter id with queue := l.queue.pop.2 } = l.seats ++ [(id, false)] :=
      List.map_append
    have others : l.seats.filter (·.1 != id) = l.seats := by
      refine List.filter_eq_self.2 fun p hp => ?_
      obtain ⟨w, hw, rfl⟩ := List.mem_map.1 hp
      simpa using absent w hw
    rw [entered, List.filter_append, others]
    simp
  | nothing =>
    cases kept : l.kept with
    | false =>
      have look := look_enter absent kept popped
      unfold pop
      rw [look]
      exact .inl ⟨rfl, seats_suspend absent⟩
    | true =>
      have first : (l.enter id).look id = (.again, { l with kept := false }) := by
        have popped : (l.enter id).queue.pop = (.nothing, l.queue.pop.2) := Prod.ext popped rfl
        unfold look
        rw [popped]
        dsimp only
        rw [find?_enter absent, kept, drop_enter absent]
        rfl
      have absent' : Absent { l with kept := false } id := absent
      have second := look_enter absent' rfl popped
      unfold pop
      rw [first]
      dsimp only
      rw [second]
      exact .inl ⟨rfl, seats_suspend absent'⟩

end Tenancy.Lobby
