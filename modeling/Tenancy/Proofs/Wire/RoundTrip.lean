import Tenancy.Proofs.Json.Reading
import Tenancy.Proofs.Wire.Objects

/-! The wire gives back what was sent over it. An object or change that can be written down is read
as it was, and what was read from a text without floating point can be written down again, no
deeper than texts may nest. -/

namespace Tenancy

open Json

variable {S : Type} [ResourceKind S] {bs : List UInt8} {j : Json}

/-! ### Texts without floating point -/

def Json.WithoutDoubles (j : Json) : Prop := All (fun l => ∀ x, l ≠ .double x) j

theorem Json.within_of_readBytes (read : readBytes bs = some j) (single : j.WithoutDoubles) :
    Within Tame nestingLimit j := by
  have within : Within Word nestingLimit j := within_of_readGlyphs read
  exact ⟨within.leaves.and single, within.depth⟩

theorem Json.within_depth (j : Json) : Within (fun _ => True) j.depth j := by
  refine ⟨?_, Nat.le_refl _⟩
  induction j using parts_induction with
  | null | bool | int | double | str | unfit => trivial
  | arr xs ih => exact all_arr.2 ih
  | obj ms ih => exact all_obj.2 ih

theorem Strategy.Drawn.exact {n : Nat} {s : Strategy} (h : s.Drawn Tame n) :
    Within Exact n s.value :=
  ⟨(h.within.leaves.and h.sound).imp fun _ => exact_iff.2, h.within.depth⟩

/-! ### Objects -/

namespace Resource

def ofBytes? (bs : List UInt8) : Option (Resource S) := (readBytes bs).bind (decode? false)

theorem ofBytes?_bytes {o : Resource S} (legible : ResourceKind.Legible S) (portable : o.Portable)
    (deep : o.encode.depth ≤ nestingLimit) : ofBytes? o.encode.bytes = some o := by
  rw [ofBytes?, readBytes_bytes (portable.exact legible) deep, Option.bind_some,
    decode?_encode legible portable]

theorem Drawn.ne_null {p : Json → Prop} {n : Nat} {o : Resource S} (h : o.Drawn p n) :
    ∀ s ∈ o.strategies, s.value ≠ .null := by
  intro s hs
  rcases List.mem_append.1 hs with hs | hs
  · exact (h.1 s (Option.mem_toList.1 hs)).ne_null
  · exact (h.2 s (Option.mem_toList.1 hs)).ne_null

theorem Drawn.portable {n : Nat} {o : Resource S} (drawn : o.Drawn Tame n)
    (plain : ∀ t ∈ o.instants, t.Plain) : o.Portable := by
  refine ⟨fun s hs => ⟨drawn.ne_null s hs, ?_⟩, plain⟩
  rcases List.mem_append.1 hs with hs | hs
  · exact (drawn.1 s (Option.mem_toList.1 hs)).exact.leaves
  · exact (drawn.2 s (Option.mem_toList.1 hs)).exact.leaves

theorem Drawn.depth_encode_le {n : Nat} {o : Resource S} (legible : ResourceKind.Legible S)
    (drawn : o.Drawn Tame (n + 2)) : o.encode.depth ≤ n + 5 :=
  (within_encode legible (fun t ht => (drawn.1 t ht).exact) fun t ht => (drawn.2 t ht).exact).depth

end Resource

/-! ### Changes -/

namespace Change

def ofBytes? (bs : List UInt8) : Option (Change S) := (readBytes bs).bind decode?

theorem ofBytes?_bytes {c : Change S} (legible : ResourceKind.Legible S)
    (portable : ∀ o ∈ c.objects, o.Portable) (deep : c.encode.depth ≤ nestingLimit) :
    ofBytes? c.encode.bytes = some c := by
  have exact : All Exact c.encode := exact_encode fun o ho => (portable o ho).exact legible
  rw [ofBytes?, readBytes_bytes exact deep, Option.bind_some,
    decode?_encode legible (sound_of_exact exact) portable]

end Change

/-! ### Both directions -/

namespace Wire

/-- What is sent comes back, no strategy that comes out of a text is `null`, and what comes out of
a text without doubles comes out of its own text again. -/
structure Faithful (S : Type) [ResourceKind S] : Prop where
  object (o : Resource S) (portable : o.Portable) (deep : o.encode.depth ≤ nestingLimit) :
    Resource.ofBytes? o.encode.bytes = some o
  change (c : Change S) (portable : ∀ o ∈ c.objects, o.Portable)
    (deep : c.encode.depth ≤ nestingLimit) : Change.ofBytes? c.encode.bytes = some c
  object_ne_null (j : Json) (held : Bool) (o : Resource S)
    (decoded : Resource.decode? held j = some o) : ∀ s ∈ o.strategies, s.value ≠ .null
  change_ne_null (j : Json) (c : Change S) (decoded : Change.decode? j = some c) :
    ∀ o ∈ c.objects, ∀ s ∈ o.strategies, s.value ≠ .null
  object_again (bs : List UInt8) (j : Json) (o : Resource S) (read : readBytes bs = some j)
    (single : j.WithoutDoubles) (decoded : Resource.decode? false j = some o)
    (plain : ∀ t ∈ o.instants, t.Plain) : Resource.ofBytes? o.encode.bytes = some o
  change_again (bs : List UInt8) (j : Json) (c : Change S) (read : readBytes bs = some j)
    (single : j.WithoutDoubles) (decoded : Change.decode? j = some c)
    (plain : ∀ o ∈ c.objects, ∀ t ∈ o.instants, t.Plain) : Change.ofBytes? c.encode.bytes = some c

theorem faithful_of_legible (legible : ResourceKind.Legible S) : Faithful S where
  object _ := Resource.ofBytes?_bytes legible
  change _ := Change.ofBytes?_bytes legible
  object_ne_null j _ _ decoded :=
    (Resource.drawn legible decoded (j.within_depth.mono (Nat.le_add_right j.depth 3))).ne_null
  change_ne_null j _ decoded o ho :=
    (Change.drawn legible decoded (j.within_depth.mono (Nat.le_add_right j.depth 4)) o ho).ne_null
  object_again bs j o read single decoded plain := by
    have within : Within Tame (124 + 3) j := within_of_readBytes read single
    have drawn : o.Drawn Tame 124 := Resource.drawn legible decoded within
    exact Resource.ofBytes?_bytes legible (drawn.portable plain) (drawn.depth_encode_le legible)
  change_again bs j c read single decoded plain := by
    have within : Within Tame (123 + 4) j := within_of_readBytes read single
    have drawn : ∀ o ∈ c.objects, o.Drawn Tame 123 := Change.drawn legible decoded within
    have deep : c.encode.depth ≤ 126 + 1 :=
      Change.depth_encode_le fun o ho => (drawn o ho).depth_encode_le legible
    exact Change.ofBytes?_bytes legible (fun o ho => (drawn o ho).portable (plain o ho)) deep

theorem faithful : Faithful OrganizationSpec ∧ Faithful DeploymentSpec :=
  ⟨faithful_of_legible OrganizationSpec.legible, faithful_of_legible DeploymentSpec.legible⟩

def served : Organization :=
  (Resource.new "tenants" "acme").setStateStrategy (some (.ofJson (.arr [.int 1])))
    |>.setConditions [.ready .epoch]

theorem portable_served : served.Portable where
  strategies := by
    refine List.forall_mem_singleton.2 ⟨?_, ?_⟩
    · intro h
      cases h
    · exact all_arr.2 (List.forall_mem_singleton.2 (And.intro (by decide) (by decide)))
  instants := List.forall_mem_singleton.2 ⟨by decide, by decide, by decide⟩

theorem faithful_served :
    Change.ofBytes? (Change.deleted served).encode.bytes = some (.deleted served) :=
  faithful.1.change _ (List.forall_mem_singleton.2 portable_served) (by decide)

end Wire
end Tenancy
