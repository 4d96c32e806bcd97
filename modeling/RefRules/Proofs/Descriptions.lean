import RefRules.Proofs.BaseChain

/-!
# RefRules — descriptions of layouts

Which descriptions have a layout: pointers have four or eight bytes, every reference to a type finds
one, every array has elements, and no type that is not an array extends itself, over however many
types. The elements of an array are not looked at; they may be arrays of the same type.

Main results:

* `LayoutDescription.exists_layout_iff` — the descriptions that have a layout;
* `LayoutDescription.IsWellFormed.withElements` — the elements of an array do not matter.
-/

namespace RefRules

open Relation (TransGen)

/-! ## Types by themselves -/

namespace TypeDescription

/-- What the type refers to is one of `count` types, and it has elements if it is an array. The type
of a field counts whether the field is static or not. -/
structure IsWellFormed (count : Nat) (t : TypeDescription) : Prop where
  base : ∀ b, t.base = some b → 0 ≤ b ∧ b < count
  elements : t.isArray = true → t.base ≠ none
  fields : ∀ f ∈ t.fields, 0 ≤ f.type ∧ f.type < count

theorem elementFault?_eq_none_iff {t : TypeDescription} :
    t.elementFault? = none ↔ (t.isArray = true → t.base ≠ none) := by
  simp [elementFault?]

theorem fault?_eq_none_iff {count i : Nat} {t : TypeDescription} :
    t.fault? count i = none ↔ t.IsWellFormed count := by
  simp only [fault?, Option.or_eq_none_iff, Option.bind_eq_none_iff, List.findSome?_eq_none_iff,
    referenceFault?_eq_none_iff, elementFault?_eq_none_iff]
  constructor
  · rintro ⟨hBase, hElements, hFields⟩
    exact ⟨hBase, hElements, hFields⟩
  · intro h
    exact ⟨h.base, h.elements, h.fields⟩

end TypeDescription

/-! ## Base types -/

/-- Type `i` is no array, and its base type is `j`. -/
def Extends (types : List TypeDescription) (i j : Nat) : Prop :=
  ∃ t, types[i]? = some t ∧ t.isArray = false ∧ t.base = some (j : Int)

/-- The table has the base types of the description, if all of them are types. -/
theorem hasBase_info_iff {types : List TypeDescription} {i j : Nat}
    (h : ∀ t ∈ types, t.IsWellFormed types.length) :
    HasBase (types.map TypeDescription.info) i j ↔ Extends types i j := by
  simp only [HasBase, Extends, List.getElem?_map, Option.bind_map, Option.bind_eq_some_iff]
  refine exists_congr fun t => and_congr_right fun hType => ?_
  show (if t.isArray then none else t.base.map Int.toNat) = some j ↔ _
  cases t.isArray with
  | true => simp
  | false =>
    simp only [Bool.false_eq_true, if_false, true_and, Option.map_eq_some_iff]
    constructor
    · rintro ⟨b, hBase, rfl⟩
      have hBounds := (h t (List.mem_of_getElem? hType)).base b hBase
      rw [hBase, Int.toNat_of_nonneg hBounds.1]
    · intro hBase
      exact ⟨j, hBase, Int.toNat_natCast j⟩

/-- The types of a table have no fault if and only if each is well-formed and none extends itself. -/
theorem faultOf_eq_none_iff {types : List TypeDescription} :
    faultOf types = none ↔
      (∀ t ∈ types, t.IsWellFormed types.length) ∧ ∀ i, ¬TransGen (Extends types) i i := by
  have hTypes : (types.zipIdx.findSome? fun t => t.1.fault? types.length t.2) = none ↔
      ∀ t ∈ types, t.IsWellFormed types.length := by
    rw [List.findSome?_eq_none_iff, List.forall_mem_zipIdx', List.forall_mem_iff_getElem]
    exact forall₂_congr fun _ _ => TypeDescription.fault?_eq_none_iff
  rw [faultOf, Option.or_eq_none_iff, hTypes, cycleFault?_eq_none_iff]
  refine and_congr_right fun hWellFormed => forall_congr' fun i => not_congr ?_
  -- both relations are one, now that all references are to types
  have hSame : HasBase (types.map TypeDescription.info) = Extends types := by
    funext i j
    exact propext (hasBase_info_iff hWellFormed)
  rw [hSame]

/-- A cycle is found from outside too, unless one of its types is an array. -/
example :
    let types (isArray : Bool) : List TypeDescription :=
      [⟨"", "Entry", some 1, false, false, 0, [], none⟩, ⟨"", "X", some 2, false, false, 0, [], none⟩,
        ⟨"", "Y", some 1, false, isArray, 0, [], none⟩]
    faultOf (types false) = some (.cyclicBase "Entry") ∧ faultOf (types true) = none := by
  decide

/-! ## Descriptions -/

theorem WordSize.exists_ofBytes_iff {n : Nat} : (∃ s, WordSize.ofBytes n = .ok s) ↔ n = 4 ∨ n = 8 := by
  constructor
  · rintro ⟨s, hSize⟩
    unfold WordSize.ofBytes at hSize
    split at hSize
    · next s' hBytes =>
      rw [ofBytes?_eq_some_iff.mp hBytes]
      cases s' with
      | four => exact .inl rfl
      | eight => exact .inr rfl
    · cases hSize
  · rintro (rfl | rfl)
    · exact ⟨.four, rfl⟩
    · exact ⟨.eight, rfl⟩

theorem Layout.exists_ofDescription_iff {d : LayoutDescription} :
    (∃ L, Layout.ofDescription d = .ok L) ↔
      (∃ s, WordSize.ofBytes d.pointerSize = .ok s) ∧ faultOf d.types = none := by
  constructor
  · rintro ⟨L, hLayout⟩
    unfold Layout.ofDescription at hLayout
    split at hLayout
    · cases hLayout
    · next s hSize =>
      split at hLayout
      · cases hLayout
      · next hFault => exact ⟨⟨s, hSize⟩, hFault⟩
  · rintro ⟨⟨s, hSize⟩, hFault⟩
    unfold Layout.ofDescription
    split
    · next cause hCause => cases hSize.symm.trans hCause
    · split
      · next fault hSome => cases hFault.symm.trans hSome
      · exact ⟨_, rfl⟩

namespace LayoutDescription

/-- Pointers have a size, all types are well-formed, and none comes back to itself from base type to
base type; an array on the way is an end, as its elements are no base type. -/
structure IsWellFormed (d : LayoutDescription) : Prop where
  pointerSize : d.pointerSize = 4 ∨ d.pointerSize = 8
  types : ∀ t ∈ d.types, t.IsWellFormed d.types.length
  acyclic : ∀ i, ¬TransGen (Extends d.types) i i

/-- The description with elements of type `e` in the arrays of type `i`. -/
def withElements (d : LayoutDescription) (i e : Nat) : LayoutDescription :=
  { d with types := d.types.modify i fun t => { t with base := some e } }

theorem isWellFormed_iff {d : LayoutDescription} :
    d.IsWellFormed ↔ (∃ L, Layout.ofDescription d = .ok L) := by
  rw [Layout.exists_ofDescription_iff, WordSize.exists_ofBytes_iff, faultOf_eq_none_iff]
  constructor
  · intro h
    exact ⟨h.pointerSize, h.types, h.acyclic⟩
  · rintro ⟨hSize, hTypes, hAcyclic⟩
    exact ⟨hSize, hTypes, hAcyclic⟩

section

variable {d : LayoutDescription} {i e : Nat} {array : TypeDescription}

theorem length_withElements : (d.withElements i e).types.length = d.types.length :=
  List.length_modify _ _ _

/-- The changed description has the type that is changed and the others of `d`. -/
theorem eq_or_of_getElem?_withElements {k : Nat} {t : TypeDescription}
    (hArray : d.types[i]? = some array) (h : (d.withElements i e).types[k]? = some t) :
    t = { array with base := some (e : Int) } ∨ d.types[k]? = some t := by
  simp only [withElements, List.getElem?_modify, Option.map_eq_map, Option.map_eq_some_iff] at h
  obtain ⟨t', hType, rfl⟩ := h
  by_cases hSame : i = k
  · subst hSame
    rw [hArray, Option.some.injEq] at hType
    subst hType
    exact .inl (if_pos rfl)
  · rw [if_neg hSame]
    exact .inr hType

/-- What an array holds does not matter, as long as it is a type. -/
theorem IsWellFormed.withElements (h : d.IsWellFormed) (hType : d.types[i]? = some array)
    (hArray : array.isArray = true) (he : e < d.types.length) : (d.withElements i e).IsWellFormed where
  pointerSize := h.pointerSize
  types t ht := by
    rw [length_withElements]
    obtain ⟨k, hk⟩ := List.mem_iff_getElem?.mp ht
    rcases eq_or_of_getElem?_withElements hType hk with rfl | hOld
    · have hFields := (h.types array (List.mem_of_getElem? hType)).fields
      refine ⟨fun b hBase => ?_, fun _ => nofun, hFields⟩
      rw [Option.some.injEq] at hBase
      omega
    · exact h.types t (List.mem_of_getElem? hOld)
  acyclic k hCycle := by
    -- an array extends nothing, before and after
    have hKept : Extends (d.withElements i e).types ≤ Extends d.types := by
      rintro a b ⟨t, ht, hNoArray, hBase⟩
      rcases eq_or_of_getElem?_withElements hType ht with rfl | hOld
      · cases hArray.symm.trans hNoArray
      · exact ⟨t, hOld, hNoArray, hBase⟩
    exact h.acyclic k (TransGen.mono hKept k k hCycle)

end

/-- **Descriptions of layouts.** A description has a layout if and only if it is well-formed. In one
that has, the arrays of any type may hold any type instead, and also be arrays of themselves. -/
theorem exists_layout_iff (d : LayoutDescription) :
    ((∃ L, Layout.ofDescription d = .ok L) ↔ d.IsWellFormed) ∧
      ∀ i array e, d.types[i]? = some array → array.isArray = true → e < d.types.length →
        (∃ L, Layout.ofDescription d = .ok L) →
        ∃ L, Layout.ofDescription (d.withElements i e) = .ok L := by
  refine ⟨isWellFormed_iff.symm, fun i array e hType hArray he hLayout => ?_⟩
  exact isWellFormed_iff.mp ((isWellFormed_iff.mpr hLayout).withElements hType hArray he)

/-- A node extends an object and refers to a node; the last type has arrays of nodes. -/
def nodes : LayoutDescription where
  pointerSize := 8
  objectHeader := 16
  arrayHeader := 24
  types :=
    [{ assembly := "mscorlib", name := "System.Object" },
      { assembly := "Game", name := "Game.Node", base := some 0,
        fields := [{ name := "next", type := 1 }, { name := "root", type := 0, isStatic := true }] },
      { assembly := "Game", name := "Game.Node[]", base := some 1, isArray := true }]

theorem exists_layout_nodes :
    (nodes.types[2]?).map (·.isArray) = some true ∧ nodes.IsWellFormed ∧
      ∃ L, Layout.ofDescription (nodes.withElements 2 2) = .ok L := by
  have hLayout : ∃ L, Layout.ofDescription nodes = .ok L := ⟨_, rfl⟩
  obtain ⟨hIff, hElements⟩ := exists_layout_iff nodes
  exact ⟨rfl, hIff.mp hLayout, hElements 2 _ 2 rfl rfl (by decide) hLayout⟩

end LayoutDescription

end RefRules
