import Mathlib.Data.List.Infix
import Mathlib.Data.List.Nodup
import Tenancy.Condition

/-! Lists of conditions. A condition that is set takes the place of the first one of its kind,
unless that says the same already. So what a kind is found to say has been said by everyone since
the time that it carries, and all other entries are as they were. -/

namespace Tenancy.Condition

variable {c c' d : Condition} {cs : List Condition} {kind : ConditionKind}

/-! ### Agreement -/

theorem agrees_iff : c.agrees d = true ↔
    c.kind = d.kind ∧ c.status = d.status ∧ c.reason = d.reason ∧ c.message = d.message := by
  simp [agrees, and_assoc]

theorem agrees_refl (c : Condition) : c.agrees c = true := by simp [agrees]

theorem agrees_symm (h : c.agrees d = true) : d.agrees c = true := by
  obtain ⟨kind, status, reason, message⟩ := agrees_iff.1 h
  exact agrees_iff.2 ⟨kind.symm, status.symm, reason.symm, message.symm⟩

theorem agrees_trans (h : c.agrees c' = true) (h' : c'.agrees d = true) : c.agrees d = true := by
  obtain ⟨kind, status, reason, message⟩ := agrees_iff.1 h
  obtain ⟨kind', status', reason', message'⟩ := agrees_iff.1 h'
  exact agrees_iff.2 ⟨kind.trans kind', status.trans status', reason.trans reason',
    message.trans message'⟩

/-! ### The first entry of a kind -/

def renewing (c : Condition) : Option Condition → Condition
  | some d => if d.agrees c then d else c
  | none => c

theorem renewing_agrees (c : Condition) (old : Option Condition) :
    (c.renewing old).agrees c = true := by
  unfold renewing
  split
  · split
    · assumption
    · exact agrees_refl c
  · exact agrees_refl c

theorem kind_renewing (c : Condition) (old : Option Condition) : (c.renewing old).kind = c.kind :=
  (agrees_iff.1 (renewing_agrees c old)).1

theorem find?_set (c : Condition) (cs : List Condition) (kind : ConditionKind) :
    (c.set cs).find? (·.kind == kind) =
      if c.kind = kind then some (c.renewing (cs.find? (·.kind == kind)))
      else cs.find? (·.kind == kind) := by
  induction cs with
  | nil => by_cases hk : c.kind = kind <;> simp [set, renewing, hk]
  | cons d ds ih =>
    by_cases hd : d.kind = c.kind
    · have placed : c.set (d :: ds) = c.renewing (some d) :: ds := by simp [set, renewing, hd]
      have same := kind_renewing c (some d)
      by_cases hk : c.kind = kind
      · simp [placed, same, hk, hd]
      · simp [placed, same, hk, hd]
    · have passed : c.set (d :: ds) = d :: c.set ds := by simp [set, hd]
      by_cases hk : d.kind = kind
      · have other : c.kind ≠ kind := fun h => hd (hk.trans h.symm)
        simp [passed, hk, other]
      · simpa [passed, hk] using ih

theorem find?_set_self (c : Condition) (cs : List Condition) :
    (c.set cs).find? (·.kind == c.kind) = some (c.renewing (cs.find? (·.kind == c.kind))) := by
  rw [find?_set, if_pos rfl]

theorem find?_set_of_ne (h : c.kind ≠ kind) (cs : List Condition) :
    (c.set cs).find? (·.kind == kind) = cs.find? (·.kind == kind) := by
  rw [find?_set, if_neg h]

theorem agrees_get_set (c : Condition) (cs : List Condition) :
    (get (c.set cs) c.kind).agrees c = true := by
  unfold get
  rw [find?_set_self]
  exact renewing_agrees c _

theorem get_set_of_ne (h : c.kind ≠ kind) (cs : List Condition) :
    get (c.set cs) kind = get cs kind := by
  unfold get
  rw [find?_set_of_ne h]

/-! ### Conditions that stand -/

def Stands (cs : List Condition) (c : Condition) : Prop :=
  ∃ d, cs.find? (·.kind == c.kind) = some d ∧ d.agrees c = true

theorem stands_set (c : Condition) (cs : List Condition) : Stands (c.set cs) c :=
  ⟨_, find?_set_self c cs, renewing_agrees c _⟩

theorem Stands.congr (h : Stands cs c) (same : c.agrees c' = true) : Stands cs c' := by
  obtain ⟨e, found, he⟩ := h
  have kind : c.kind = c'.kind := (agrees_iff.1 same).1
  exact ⟨e, kind ▸ found, agrees_trans he same⟩

theorem Stands.set_eq (h : Stands cs c) : c.set cs = cs := by
  obtain ⟨e, found, same⟩ := h
  induction cs with
  | nil => cases found
  | cons x xs ih =>
    unfold set
    by_cases hx : x.kind = c.kind
    · obtain rfl : x = e := by simpa [hx] using found
      rw [if_pos hx, if_pos same]
    · rw [if_neg hx, ih (by simpa [hx] using found)]

/-! ### Batches -/

theorem setAll_cons (cs batch : List Condition) (c : Condition) :
    setAll cs (c :: batch) = setAll (c.set cs) batch := rfl

theorem setAll_concat (cs batch : List Condition) (c : Condition) :
    setAll cs (batch ++ [c]) = c.set (setAll cs batch) :=
  List.foldl_concat (fun (cs : List Condition) (c : Condition) => c.set cs) cs c batch

variable {batch : List Condition}

theorem find?_setAll_of_not_mem (h : kind ∉ batch.map (·.kind)) (cs : List Condition) :
    (setAll cs batch).find? (·.kind == kind) = cs.find? (·.kind == kind) := by
  induction batch generalizing cs with
  | nil => rfl
  | cons c batch ih =>
    rw [List.map_cons, List.mem_cons, not_or] at h
    rw [setAll_cons, ih h.2, find?_set_of_ne (Ne.symm h.1)]

theorem stands_setAll (distinct : (batch.map (·.kind)).Nodup) (cs : List Condition)
    (h : c ∈ batch) : Stands (setAll cs batch) c := by
  induction batch generalizing cs with
  | nil => cases h
  | cons d batch ih =>
    rw [List.map_cons, List.nodup_cons] at distinct
    rw [setAll_cons]
    rcases List.mem_cons.1 h with rfl | h
    · obtain ⟨e, found, same⟩ := stands_set c cs
      exact ⟨e, (find?_setAll_of_not_mem distinct.1 _).trans found, same⟩
    · exact ih distinct.2 _ h

theorem setAll_eq_self (h : ∀ c ∈ batch, Stands cs c) : setAll cs batch = cs := by
  induction batch with
  | nil => rfl
  | cons c batch ih =>
    rw [setAll_cons, (h c List.mem_cons_self).set_eq]
    exact ih fun d hd => h d (List.mem_cons_of_mem c hd)

theorem setAll_setAll {batch' : List Condition} (distinct : (batch.map (·.kind)).Nodup)
    (cs : List Condition) (same : ∀ d ∈ batch', ∃ c ∈ batch, c.agrees d = true) :
    setAll (setAll cs batch) batch' = setAll cs batch := by
  refine setAll_eq_self fun d hd => ?_
  obtain ⟨c, hc, agree⟩ := same d hd
  exact (stands_setAll distinct cs hc).congr agree

/-! ### Places -/

theorem kinds_set (c : Condition) (cs : List Condition) :
    (c.set cs).map (·.kind) =
      if c.kind ∈ cs.map (·.kind) then cs.map (·.kind) else cs.map (·.kind) ++ [c.kind] := by
  induction cs with
  | nil => simp [set]
  | cons d ds ih =>
    by_cases hd : d.kind = c.kind
    · by_cases same : d.agrees c = true <;> simp [set, hd, same]
    · have other : c.kind ≠ d.kind := Ne.symm hd
      by_cases held : c.kind ∈ ds.map (·.kind)
      · rw [if_pos held] at ih
        simp [set, hd, ih, held]
      · rw [if_neg held] at ih
        simp [set, hd, ih, held, other]

theorem getElem?_set {i : Nat} (h : cs[i]? = some d)
    (spared : d.kind = c.kind → c.kind ∈ (cs.take i).map (·.kind)) :
    (c.set cs)[i]? = some d := by
  induction cs generalizing i with
  | nil => simp at h
  | cons x xs ih =>
    unfold set
    cases i with
    | zero =>
      obtain rfl : x = d := by simpa using h
      have other : x.kind ≠ c.kind := fun hx => by simpa using spared hx
      rw [if_neg other]
      rfl
    | succ i =>
      split
      · exact h
      · rename_i hx
        refine ih h fun hd => ?_
        have earlier := spared hd
        rw [List.take_succ_cons, List.map_cons, List.mem_cons] at earlier
        exact earlier.resolve_left (Ne.symm hx)

/-- Every entry keeps its place, and those that are not the first of their kind stay as they are. -/
structure Keeps (cs ds : List Condition) : Prop where
  kinds : cs.map (·.kind) <+: ds.map (·.kind)
  others (i : Nat) (c : Condition) : cs[i]? = some c → c.kind ∈ (cs.take i).map (·.kind) →
    ds[i]? = some c

theorem Keeps.rfl : Keeps cs cs := ⟨List.prefix_rfl, fun _ _ h _ => h⟩

theorem Keeps.set {ds : List Condition} (h : Keeps cs ds) (c : Condition) :
    Keeps cs (c.set ds) := by
  constructor
  · refine h.kinds.trans ?_
    rw [kinds_set]
    split
    · exact List.prefix_rfl
    · exact List.prefix_append ..
  · intro i d hd later
    refine getElem?_set (h.others i d hd later) fun same => ?_
    -- the kinds before this place are still the same
    have before : (cs.take i).map (·.kind) <+: (ds.take i).map (·.kind) := by
      rw [List.map_take, List.map_take]
      exact h.kinds.take i
    exact same ▸ before.subset later

theorem keeps_setAll (cs batch : List Condition) : Keeps cs (setAll cs batch) := by
  induction batch using List.reverseRecOn with
  | nil => exact .rfl
  | append_singleton batch c ih =>
    rw [setAll_concat]
    exact ih.set c

theorem nodup_setAll (h : (cs.map (·.kind)).Nodup) (batch : List Condition) :
    ((setAll cs batch).map (·.kind)).Nodup := by
  induction batch using List.reverseRecOn with
  | nil => exact h
  | append_singleton batch c ih =>
    rw [setAll_concat, kinds_set]
    split
    · exact ih
    · rename_i new
      exact List.nodup_append.2 ⟨ih, List.nodup_singleton _, fun a ha b hb hab =>
        new (List.mem_singleton.1 hb ▸ hab ▸ ha)⟩

/-! ### Times -/

/-- The longest end of a list in which all conditions agree. -/
structure LastRun (cs run : List Condition) : Prop where
  suffix : run <:+ cs
  agree : ∀ c ∈ run, ∀ d ∈ run, c.agrees d = true
  longest (r : List Condition) : r <:+ cs → (∀ c ∈ r, ∀ d ∈ r, c.agrees d = true) → r <:+ run

theorem lastRun_singleton (c : Condition) : LastRun [c] [c] := by
  refine ⟨List.suffix_rfl, fun a ha b hb => ?_, fun r hr _ => hr⟩
  rw [List.mem_singleton.1 ha, List.mem_singleton.1 hb]
  exact agrees_refl c

namespace LastRun

variable {run : List Condition}

theorem of_suffix_concat {r : List Condition} (h : LastRun cs run) (hr : r <:+ cs ++ [c])
    (agree : ∀ a ∈ r, ∀ b ∈ r, a.agrees b = true) :
    r = [] ∨ ∃ r', r = r' ++ [c] ∧ r' <:+ run := by
  rcases List.suffix_concat_iff.1 hr with rfl | ⟨r', rfl, hr'⟩
  · exact .inl rfl
  · refine .inr ⟨r', by simp, h.longest r' hr' fun a ha b hb => ?_⟩
    exact agree a (by simp [ha]) b (by simp [hb])

theorem extend (h : LastRun cs (d :: run)) (same : d.agrees c = true) :
    LastRun (cs ++ [c]) (d :: (run ++ [c])) := by
  have all : ∀ a ∈ d :: (run ++ [c]), a.agrees c = true := by
    intro a ha
    rw [← List.cons_append, List.mem_append, List.mem_singleton] at ha
    rcases ha with ha | rfl
    · exact agrees_trans (h.agree a ha d List.mem_cons_self) same
    · exact agrees_refl a
  refine ⟨?_, fun a ha b hb => agrees_trans (all a ha) (agrees_symm (all b hb)), ?_⟩
  · obtain ⟨before, rfl⟩ := h.suffix
    exact ⟨before, by simp⟩
  · intro r hr agree
    rcases h.of_suffix_concat hr agree with rfl | ⟨r', rfl, ⟨before, hr'⟩⟩
    · exact List.nil_suffix
    · exact ⟨before, by rw [← List.cons_append, ← hr', List.append_assoc]⟩

theorem restart (h : LastRun cs (d :: run)) (differs : d.agrees c = false) :
    LastRun (cs ++ [c]) [c] := by
  refine ⟨List.suffix_append .., (lastRun_singleton c).agree, fun r hr agree => ?_⟩
  rcases h.of_suffix_concat hr agree with rfl | ⟨r', rfl, hr'⟩
  · exact List.nil_suffix
  · cases r' with
    | nil => exact List.suffix_rfl
    | cons a r' =>
      -- what is in both runs would make their conditions agree
      have ha : a ∈ d :: run := hr'.subset List.mem_cons_self
      have first : d.agrees a = true := h.agree d List.mem_cons_self a ha
      have second : a.agrees c = true := agree a (by simp) c (by simp)
      rw [agrees_trans first second] at differs
      cases differs

theorem agrees_last {last : Condition} (h : LastRun cs (d :: run)) (hl : cs.getLast? = some last) :
    d.agrees last = true := by
  obtain ⟨before, rfl⟩ := h.suffix
  rw [List.getLast?_append_cons] at hl
  exact h.agree d List.mem_cons_self last (List.mem_of_getLast? hl)

end LastRun

/-- What there is of a kind at first, and what a batch says of it. -/
def sayings (cs batch : List Condition) (kind : ConditionKind) : List Condition :=
  (cs.find? (·.kind == kind)).toList ++ batch.filter (·.kind == kind)

theorem sayings_concat (cs batch : List Condition) (c : Condition) (kind : ConditionKind) :
    sayings cs (batch ++ [c]) kind =
      sayings cs batch kind ++ if c.kind = kind then [c] else [] := by
  unfold sayings
  rw [List.filter_append, List.append_assoc]
  by_cases hk : c.kind = kind <;> simp [hk]

theorem lastRun_setAll (cs batch : List Condition) (kind : ConditionKind) :
    (sayings cs batch kind = [] ∧ (setAll cs batch).find? (·.kind == kind) = none) ∨
      ∃ c run, (setAll cs batch).find? (·.kind == kind) = some c ∧
        LastRun (sayings cs batch kind) (c :: run) := by
  induction batch using List.reverseRecOn with
  | nil =>
    unfold sayings setAll
    rw [List.foldl_nil, List.filter_nil, List.append_nil]
    cases cs.find? (·.kind == kind) with
    | none => exact .inl ⟨rfl, rfl⟩
    | some c => exact .inr ⟨c, [], rfl, lastRun_singleton c⟩
  | append_singleton batch c ih =>
    rw [setAll_concat, sayings_concat, find?_set]
    by_cases hk : c.kind = kind
    · rw [if_pos hk, if_pos hk]
      refine .inr ?_
      rcases ih with ⟨silent, found⟩ | ⟨d, run, found, last⟩
      · rw [silent, found]
        exact ⟨c, [], rfl, lastRun_singleton c⟩
      · rw [found]
        cases same : d.agrees c with
        | true => exact ⟨d, run ++ [c], by simp [renewing, same], last.extend same⟩
        | false => exact ⟨c, [], by simp [renewing, same], last.restart same⟩
    · rw [if_neg hk, if_neg hk, List.append_nil]
      exact ih

/-- Of each kind in a batch the last condition holds, since the time of the first one of those that
have said so in a row, the entry that was there before among them. All other kinds are as they were,
entries keep their places, none but the first of a kind is replaced, and no kind is doubled. A batch
with one condition of each kind does nothing the second time. -/
theorem setAll_renews (cs batch : List Condition) :
    (∀ kind ∈ batch.map (·.kind), ∃ last c run,
      (batch.filter (·.kind == kind)).getLast? = some last ∧
      (get (setAll cs batch) kind).agrees last = true ∧
      LastRun (sayings cs batch kind) (c :: run) ∧
      (get (setAll cs batch) kind).since = c.since) ∧
    (∀ kind ∉ batch.map (·.kind), get (setAll cs batch) kind = get cs kind) ∧
    cs.map (·.kind) <+: (setAll cs batch).map (·.kind) ∧
    (∀ (i : Nat) (c : Condition), cs[i]? = some c → c.kind ∈ (cs.take i).map (·.kind) →
      (setAll cs batch)[i]? = some c) ∧
    ((cs.map (·.kind)).Nodup → ((setAll cs batch).map (·.kind)).Nodup) ∧
    ((batch.map (·.kind)).Nodup → setAll (setAll cs batch) batch = setAll cs batch) := by
  have keeps := keeps_setAll cs batch
  refine ⟨fun kind named => ?_, fun kind unnamed => ?_, keeps.kinds, keeps.others,
    fun distinct => nodup_setAll distinct batch, fun distinct => ?_⟩
  · obtain ⟨e, he, rfl⟩ := List.mem_map.1 named
    have said : e ∈ batch.filter (·.kind == e.kind) := List.mem_filter.2 ⟨he, by simp⟩
    obtain ⟨last, hl⟩ : ∃ last, (batch.filter (·.kind == e.kind)).getLast? = some last :=
      Option.ne_none_iff_exists'.1 fun none => by simp [List.getLast?_eq_none_iff.1 none] at said
    rcases lastRun_setAll cs batch e.kind with ⟨silent, -⟩ | ⟨c, run, found, run_⟩
    · rw [sayings, List.append_eq_nil_iff] at silent
      rw [silent.2] at said
      cases said
    · have got : get (setAll cs batch) e.kind = c := by
        unfold get
        rw [found]
        rfl
      have ends : (sayings cs batch e.kind).getLast? = some last := by
        unfold sayings
        rw [List.getLast?_append, hl]
        rfl
      rw [got]
      exact ⟨last, c, run, hl, run_.agrees_last ends, run_, rfl⟩
  · unfold get
    rw [find?_setAll_of_not_mem unnamed]
  · exact setAll_setAll distinct cs fun c hc => ⟨c, hc, agrees_refl c⟩

def doubled : List Condition := [ready ⟨1, 0⟩, success ⟨1, 0⟩, notReady ⟨2, 0⟩]

def relapse : List Condition := [notReady ⟨3, 0⟩, ready ⟨4, 0⟩, ready ⟨5, 0⟩]

theorem setAll_renews_relapse : ∃ c run,
    LastRun (sayings doubled relapse .ready) (c :: run) ∧ c.since = ⟨4, 0⟩ ∧
      (get (setAll doubled relapse) .ready).agrees (ready ⟨5, 0⟩) = true ∧
      get (setAll doubled relapse) .synced = success ⟨1, 0⟩ ∧
      (setAll doubled relapse)[2]? = some (notReady ⟨2, 0⟩) := by
  obtain ⟨named, unnamed, -, others, -⟩ := setAll_renews doubled relapse
  obtain ⟨last, c, run, ends, agree, run_, since⟩ := named .ready (by decide)
  obtain rfl : ready ⟨5, 0⟩ = last := Option.some.inj ends
  have at_ : (get (setAll doubled relapse) .ready).since = ⟨4, 0⟩ := by decide
  exact ⟨c, run, run_, since.symm.trans at_, agree, unnamed .synced (by decide),
    others 2 (notReady ⟨2, 0⟩) rfl (by decide)⟩

end Tenancy.Condition
