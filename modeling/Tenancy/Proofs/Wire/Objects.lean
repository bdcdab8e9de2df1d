import Tenancy.Proofs.Wire.Origin

/-! Objects and changes are decoded from their encodings. -/

namespace Tenancy

open Json Fields

variable {d : Nat} {S : Type} [ResourceKind S]

/-! ### Observed state -/

namespace Observed

def names : List String := ["status", "reason", "register", "addressAllocationStrategy"]

theorem encode_eq (o : Observed) : o.encode = .obj (present names [some (.str o.status),
    some (.str o.reason), some (.arr (o.registers.map Register.encode)),
    some (.ofOption Strategy.encode o.strategy)]) := rfl

theorem decode?_encode {o : Observed} (h : ∀ s ∈ o.strategy, s.Portable) :
    decode? o.encode = some o := by
  have distinct : names.Nodup := by decide
  have registers : list? Register.decode? (.arr (o.registers.map Register.encode)) =
      some o.registers := list?_arr fun r _ => r.decode?_encode
  rw [encode_eq, decode?, ← names, record?_present distinct]
  simp only [Option.bind_eq_bind, Option.bind_some]
  rw [withDefault?_present distinct rfl, string?, Option.bind_some,
    withDefault?_present distinct rfl, string?, Option.bind_some,
    withDefault?_present distinct rfl, registers, Option.bind_some,
    optional?_ofOption distinct rfl]
  · rfl
  · exact fun s hs => Strategy.decode?_encode (h s hs)
  · exact fun s hs => (h s hs).ne_null

theorem within_encode {o : Observed} (h : ∀ s ∈ o.strategy, Within Exact (d + 2) s.value) :
    Within Exact (d + 3) o.encode := by
  have registers : Within Exact (d + 2) (.arr (o.registers.map Register.encode)) :=
    within_arr.2 (List.forall_mem_map.2 fun r _ => r.within_encode)
  have strategy : Within Exact (d + 2) (.ofOption Strategy.encode o.strategy) := by
    cases given : o.strategy with
    | none => exact ⟨trivial, Nat.zero_le _⟩
    | some s => exact h s given
  rw [encode_eq]
  refine within_present ?_
  simp [within_str, registers, strategy]

end Observed

/-! ### Status -/

namespace Status

variable {slot : String} {s : Status}

theorem encode_eq : s.encode slot = .obj (present ["conditions", slot]
    [listed Condition.encode s.conditions, s.observed.map Observed.encode]) := by
  rw [← ofMembers_zip, encode, unlessNone_eq, unlessEmpty_eq]
  rfl

theorem within_encode (h : ∀ o ∈ s.observed, Within Exact (d + 2) o.encode) :
    Within Exact (d + 3) (s.encode slot) := by
  have conditions : ∀ j ∈ listed Condition.encode s.conditions, Within Exact (d + 2) j :=
    within_listed fun c _ => c.within_encode
  rw [encode_eq]
  refine within_present ?_
  simpa using ⟨conditions, h⟩

theorem decode?_encode (fresh : slot ≠ "conditions") (sound : (s.encode slot).sound = true)
    (instants : ∀ c ∈ s.conditions, c.since.Plain)
    (strategies : ∀ o ∈ s.observed, ∀ t ∈ o.strategy, t.Portable) :
    decode? slot (s.encode slot) = some s := by
  have distinct : ["conditions", slot].Nodup := by simpa using fresh.symm
  have subset : ∀ n ∈ ["conditions", slot], n ∈ [slot] ++ ["conditions"] := by simp
  have observed (x y : Option Json) : (["conditions", slot].zip [x, y]).lookup slot = some y := by
    simp [List.lookup_cons, beq_false_of_ne fresh]
  rw [encode_eq] at sound ⊢
  rw [decode?, openRecord?_present distinct subset sound]
  simp only [Option.bind_eq_bind, Option.bind_some]
  rw [withDefault?_listed distinct rfl, Option.bind_some,
    optional?_present distinct (observed _ _)]
  · rfl
  · exact fun o ho => Observed.decode?_encode (strategies o ho)
  · exact fun _ _ => obj_ne_null _
  · exact fun c hc => Condition.decode?_encode (instants c hc) true

end Status

/-! ### Specifications -/

namespace OrganizationSpec

def names : List String := ["description", "register", "addressAllocationStrategy"]

theorem encode_eq (s : OrganizationSpec) : s.encode = .obj (present names [s.description.map .str,
    listed Register.encode s.registers, s.strategy.map Strategy.encode]) := by
  rw [← ofMembers_zip, encode, unlessNone_eq, unlessEmpty_eq, unlessNone_eq]
  rfl

theorem decode?_encode {s : OrganizationSpec} (h : ∀ t ∈ s.strategy, t.Portable) :
    decode? s.encode = some s := by
  have distinct : names.Nodup := by decide
  rw [encode_eq, decode?, ← names, record?_present distinct]
  simp only [Option.bind_eq_bind, Option.bind_some]
  rw [optional?_text distinct rfl, Option.bind_some,
    withDefault?_listed distinct rfl, Option.bind_some,
    optional?_present distinct rfl]
  · rfl
  · exact fun t ht => Strategy.decode?_encode (h t ht)
  · exact fun t ht => (h t ht).ne_null
  · exact fun r _ => r.decode?_encode

theorem within_encode {s : OrganizationSpec} (h : ∀ t ∈ s.strategy, Within Exact (d + 2) t.value) :
    Within Exact (d + 3) s.encode := by
  have registers : ∀ j ∈ listed Register.encode s.registers, Within Exact (d + 2) j :=
    within_listed fun r _ => r.within_encode
  rw [encode_eq]
  refine within_present ?_
  simpa [within_str, Strategy.encode] using ⟨registers, h⟩

theorem legible : ResourceKind.Legible OrganizationSpec where
  slot := by decide
  blank := rfl
  within := within_encode
  back _ := decode?_encode
  drawn := OrganizationSpec.drawn

end OrganizationSpec

namespace DeploymentSpec

theorem encode_eq (s : DeploymentSpec) : s.encode = .obj (present fieldNames
    [some (.str s.adminState.text), s.description.map .str, s.region.map .str,
      s.kind.map fun k => .str k.text, listed Register.encode s.registers,
      s.strategy.map Strategy.encode]) := by
  rw [← ofMembers_zip, encode]
  simp only [unlessNone_eq, unlessEmpty_eq]
  rfl

theorem decode?_encode {s : DeploymentSpec} (held : Bool) (h : ∀ t ∈ s.strategy, t.Portable) :
    decode? held s.encode = some s := by
  have distinct : fieldNames.Nodup := by decide
  rw [encode_eq, decode?, record?_present distinct]
  simp only [Option.bind_eq_bind, Option.bind_some]
  rw [withDefault?_present distinct rfl, variant?, Option.bind_some, AdminState.parse?_text,
    Option.bind_some,
    optional?_text distinct rfl, Option.bind_some,
    optional?_text distinct rfl, Option.bind_some,
    optional?_present distinct rfl, Option.bind_some,
    withDefault?_listed distinct rfl, Option.bind_some,
    optional?_present distinct rfl]
  · rfl
  · exact fun t ht => Strategy.decode?_encode (h t ht)
  · exact fun t ht => (h t ht).ne_null
  · exact fun r _ => r.decode?_encode
  · exact fun k _ => k.parse?_text
  · exact fun _ _ => str_ne_null _

theorem within_encode {s : DeploymentSpec} (h : ∀ t ∈ s.strategy, Within Exact (d + 2) t.value) :
    Within Exact (d + 3) s.encode := by
  have registers : ∀ j ∈ listed Register.encode s.registers, Within Exact (d + 2) j :=
    within_listed fun r _ => r.within_encode
  rw [encode_eq]
  refine within_present ?_
  simpa [within_str, Strategy.encode] using ⟨registers, h⟩

theorem legible : ResourceKind.Legible DeploymentSpec where
  slot := by decide
  blank := rfl
  within := within_encode
  back := decode?_encode
  drawn := DeploymentSpec.drawn

end DeploymentSpec

/-! ### Objects -/

namespace Resource

def names : List String := ["apiVersion", "kind", "metadata", "spec", "status"]

def strategies (o : Resource S) : List Strategy := o.strategy.toList ++ o.stateStrategy.toList

def instants (o : Resource S) : List Instant :=
  o.metadata.deletedAt.toList ++ o.status.conditions.map (·.since)

structure Portable (o : Resource S) : Prop where
  strategies : ∀ s ∈ o.strategies, s.Portable
  instants : ∀ t ∈ o.instants, t.Plain

theorem encode_eq (o : Resource S) : o.encode = .obj (present names
    [some (.str o.typeMeta.apiVersion), some (.str o.typeMeta.kind), some o.metadata.encode,
      some (ResourceKind.encode o.spec), some (o.status.encode (ResourceKind.slot S))]) := rfl

theorem within_encode (legible : ResourceKind.Legible S) {o : Resource S}
    (spec : ∀ t ∈ o.strategy, Within Exact (d + 3) t.value)
    (observed : ∀ t ∈ o.stateStrategy, Within Exact (d + 2) t.value) :
    Within Exact (d + 5) o.encode := by
  have spec' : Within Exact (d + 4) (ResourceKind.encode o.spec) := legible.within spec
  have status : Within Exact (d + 4) (o.status.encode (ResourceKind.slot S)) := by
    refine Status.within_encode fun x hx => Observed.within_encode fun t ht => ?_
    refine observed t ?_
    rw [stateStrategy, Resource.observed, Option.mem_def.1 hx]
    exact ht
  rw [encode_eq]
  refine within_present ?_
  simp [within_str, o.metadata.within_encode, spec', status]

theorem exists_within {l : List Strategy} (h : ∀ s ∈ l, s.Portable) :
    ∃ d, ∀ s ∈ l, Within Exact d s.value := by
  induction l with
  | nil => exact ⟨0, List.forall_mem_nil _⟩
  | cons s l ih =>
    obtain ⟨d, hd⟩ := ih fun t ht => h t (List.mem_cons_of_mem _ ht)
    refine ⟨max s.value.depth d, List.forall_mem_cons.2 ⟨⟨(h s (List.mem_cons_self ..)).exact, ?_⟩,
      fun t ht => (hd t ht).mono (Nat.le_max_right ..)⟩⟩
    exact Nat.le_max_left ..

theorem Portable.exact {o : Resource S} (legible : ResourceKind.Legible S) (h : o.Portable) :
    All Exact o.encode := by
  obtain ⟨d, hd⟩ := exists_within h.strategies
  refine (within_encode (d := d) legible (fun t ht => ?_) fun t ht => ?_).leaves
  · refine (hd t ?_).mono (by omega)
    exact List.mem_append_left _ (Option.mem_toList.2 ht)
  · refine (hd t ?_).mono (by omega)
    exact List.mem_append_right _ (Option.mem_toList.2 ht)

theorem decode?_encode {o : Resource S} (legible : ResourceKind.Legible S) (h : o.Portable)
    (held : Bool) : decode? held o.encode = some o := by
  have distinct : names.Nodup := by decide
  have subset : ∀ n ∈ names, n ∈ ["metadata", "spec", "status"] ++ TypeMeta.fieldNames := by decide
  have exact := h.exact legible
  have deletedAt : ∀ t ∈ o.metadata.deletedAt, t.Plain := fun t ht =>
    h.instants t (List.mem_append_left _ (Option.mem_toList.2 ht))
  have conditions : ∀ c ∈ o.status.conditions, c.since.Plain := fun c hc =>
    h.instants _ (List.mem_append_right _ (List.mem_map_of_mem hc))
  have declared : ∀ t ∈ o.strategy, t.Portable := fun t ht =>
    h.strategies t (List.mem_append_left _ (Option.mem_toList.2 ht))
  have observed : ∀ x ∈ o.status.observed, ∀ t ∈ x.strategy, t.Portable := by
    intro x hx t ht
    refine h.strategies t (List.mem_append_right _ (Option.mem_toList.2 ?_))
    rw [stateStrategy, Resource.observed, Option.mem_def.1 hx]
    exact ht
  rw [encode_eq] at exact ⊢
  have status : (o.status.encode (ResourceKind.slot S)).sound = true := by
    refine sound_of_exact (all_obj.1 exact ("status", o.status.encode (ResourceKind.slot S)) ?_)
    simp [present, names]
  rw [decode?, openRecord?_present distinct subset (sound_of_exact exact)]
  simp only [Option.bind_eq_bind, Option.bind_some]
  rw [TypeMeta.ofFields?_present distinct rfl rfl, Option.bind_some,
    required?_present distinct rfl, Metadata.decode?_encode deletedAt, Option.bind_some,
    withDefault?_present distinct rfl, legible.back held declared, Option.bind_some,
    withDefault?_present distinct rfl,
    Status.decode?_encode legible.slot status conditions observed]
  rfl

end Resource

/-! ### Changes -/

namespace Change

theorem encode_eq (c : Change S) : ∃ ms : List (String × Json),
    c.encode = .obj (("type", .str c.operation.text) :: ms) ∧
      ∀ m ∈ ms, ∃ o ∈ c.objects, m.2 = o.encode := by
  cases c <;> exact ⟨_, rfl, by simp [objects]⟩

theorem exact_encode {c : Change S} (h : ∀ o ∈ c.objects, All Exact o.encode) :
    All Exact c.encode := by
  obtain ⟨ms, encoded, objects⟩ := c.encode_eq
  rw [encoded]
  refine all_obj.2 (List.forall_mem_cons.2 ⟨trivial, fun m hm => ?_⟩)
  obtain ⟨o, ho, is⟩ := objects m hm
  exact is ▸ h o ho

theorem depth_encode_le {c : Change S} (h : ∀ o ∈ c.objects, o.encode.depth ≤ d) :
    c.encode.depth ≤ d + 1 := by
  obtain ⟨ms, encoded, objects⟩ := c.encode_eq
  rw [encoded]
  refine depth_obj_le.2 (List.forall_mem_cons.2 ⟨Nat.zero_le _, fun m hm => ?_⟩)
  obtain ⟨o, ho, is⟩ := objects m hm
  exact is ▸ h o ho

theorem decode?_tagged (op : Operation) {ms : List (String × Json)}
    (sound : (Json.obj (("type", .str op.text) :: ms)).sound = true)
    (fresh : ∀ m ∈ ms, m.1 ≠ "type") :
    decode? (S := S) (.obj (("type", .str op.text) :: ms)) = decodeBody? op (.obj ms) := by
  have tag : ms.filter (fun m => ["type"].contains m.1) = [] :=
    List.filter_eq_nil_iff.2 fun m hm => by simpa using fresh m hm
  have body : ms.filter (·.1 != "type") = ms :=
    List.filter_eq_self.2 fun m hm => bne_iff_ne.2 (fresh m hm)
  have fields : fieldsOf? ["type"] (("type", .str op.text) :: ms) =
      some [("type", .str op.text)] := by
    simp only [fieldsOf?, List.filter_cons, tag]
    rfl
  rw [decode?, if_pos sound, fields]
  simp only [Option.bind_eq_bind, Option.bind_some]
  rw [required?, List.lookup_cons_self, Option.bind_some, string?, Option.bind_some,
    Operation.parse?_text, Option.bind_some, List.filter_cons, body]
  rfl

theorem decode?_encode {c : Change S} (legible : ResourceKind.Legible S)
    (sound : c.encode.sound = true) (h : ∀ o ∈ c.objects, o.Portable) :
    decode? c.encode = some c := by
  have back (o : Resource S) (ho : o ∈ c.objects) : Resource.decode? true o.encode = some o :=
    Resource.decode?_encode legible (h o ho) true
  cases c with
  | created o | deleted o | generic o =>
    have distinct : ["object"].Nodup := by decide
    have fields : record? ["object"] (.obj [("object", o.encode)]) =
        some (present ["object"] [some o.encode]) := @record?_present _ [some o.encode] distinct
    refine (decode?_tagged _ sound (by simp)).trans ?_
    simp only [operation, decodeBody?, fields, Option.bind_eq_bind, Option.bind_some]
    rw [required?_present distinct rfl, back o (List.mem_singleton_self o)]
    rfl
  | updated old new =>
    have distinct : ["old", "new"].Nodup := by decide
    have fields : record? ["old", "new"] (.obj [("old", old.encode), ("new", new.encode)]) =
        some (present ["old", "new"] [some old.encode, some new.encode]) :=
      @record?_present _ [some old.encode, some new.encode] distinct
    refine (decode?_tagged .updated sound (by simp)).trans ?_
    simp only [decodeBody?, fields, Option.bind_eq_bind, Option.bind_some]
    rw [required?_present distinct rfl, back old (List.mem_cons_self ..), Option.bind_some,
      required?_present distinct rfl,
      back new (List.mem_cons_of_mem _ (List.mem_singleton_self new))]
    rfl

end Change
end Tenancy
