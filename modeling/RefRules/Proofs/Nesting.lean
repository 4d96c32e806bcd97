import RefRules.Proofs.Paths
import RefRules.Proofs.Reading

/-!
# RefRules — tables of nested types

Slots are collected with the offset so far and the types around the one that is laid out; none of
these is laid out again. Where no type is nested in itself this makes no difference: a value
contributes the table of its own type, however deep it lies and however often its type occurs. Offsets
are sums of 32 bits, also where they wrap.

Main results:

* `Layout.IsAround.not_mem` — a type that is nested next is none of those around it;
* `map_shiftSlot_collectSlots` — the slots of a type are the same wherever it is laid out;
* `OffsetTable.objectSlots_eq_parts` — the table of a type is put together from those of its parts.
-/

namespace RefRules

open Relation (ReflTransGen TransGen)

namespace Layout

variable {L : Layout} {t c : Nat}

/-! ## Nested types -/

/-- A part of an instance of type `t` has type `c`: the part of the base type, or a value in a field.
A field of the type itself has no part of its own. -/
inductive Embeds (L : Layout) (t : Nat) : Nat → Prop
  | base {b : Nat} (hBase : L.base? t = some b) : Embeds L t b
  | value {f : Nat} (hField : f < (L.fields t).length) (hStatic : L.isStatic t f = false)
      (hValue : L.isValueField t f = true) (hOther : L.fieldType t f ≠ t) :
      Embeds L t (L.fieldType t f)

/-- Neither `t` nor a type that is nested in it at any depth is nested in itself. -/
def Unfolds (L : Layout) (t : Nat) : Prop :=
  ∀ u, ReflTransGen L.Embeds t u → ¬TransGen L.Embeds u u

theorem Unfolds.embeds (h : L.Unfolds t) (hc : L.Embeds t c) : L.Unfolds c :=
  fun u hu => h u (.head hc hu)

/-- Types are not nested in themselves if they have a rank that falls. -/
theorem unfolds_of_rank {rank : Nat → Nat} (h : ∀ t c, L.Embeds t c → rank c < rank t) (t : Nat) :
    L.Unfolds t := by
  have hFalls : ∀ u v, TransGen L.Embeds u v → rank v < rank u := by
    intro u v hReach
    induction hReach with
    | single hStep => exact h _ _ hStep
    | tail _ hStep ih => exact Nat.lt_trans (h _ _ hStep) ih
  exact fun u _ hCycle => Nat.lt_irrefl _ (hFalls u u hCycle)

theorem fieldType_lt {f : Nat} (hField : f < (L.fields t).length) : L.fieldType t f < L.count := by
  obtain ⟨info, hInfo⟩ : ∃ info, L.types[t]? = some info :=
    ⟨_, List.getElem?_eq_getElem (lt_count_of_lt_fields hField)⟩
  have hClosed := isClosed_of_getElem? hInfo
  simp only [TypeInfo.isClosed, Bool.and_eq_true, List.all_eq_true, decide_eq_true_eq] at hClosed
  have hFields : L.fields t = info.fields := by rw [fields, hInfo]; rfl
  rw [hFields] at hField
  have hType : L.fieldType t f = info.fields[f].type := by simp [fieldType, field?, hFields, hField]
  rw [hType]
  exact hClosed.1.2 _ (List.getElem_mem hField)

theorem Embeds.lt_count (h : L.Embeds t c) : t < L.count ∧ c < L.count := by
  cases h with
  | base hBase =>
    obtain ⟨info, hInfo, hBase⟩ := Option.bind_eq_some_iff.mp hBase
    have hClosed := isClosed_of_getElem? hInfo
    simp only [TypeInfo.base?, Option.ite_none_left_eq_some] at hBase
    simp only [TypeInfo.isClosed, Bool.and_eq_true, hBase.2, Option.all_some,
      decide_eq_true_eq] at hClosed
    exact ⟨(List.getElem?_eq_some_iff.mp hInfo).1, hClosed.1.1⟩
  | value hField => exact ⟨lt_count_of_lt_fields hField, fieldType_lt hField⟩

/-! ## Types around a type -/

/-- The types of `visiting` are around one of type `t`, each once, and the fuel is enough for all
others. -/
structure IsAround (L : Layout) (visiting : List Nat) (t fuel : Nat) : Prop where
  nested : ∀ v ∈ visiting, TransGen L.Embeds v t
  nodup : visiting.Nodup
  types : ∀ v ∈ visiting, v < L.count
  fuel : L.count < fuel + visiting.length

variable {visiting : List Nat} {fuel : Nat}

/-- Nothing is around the type that is asked for. -/
theorem isAround_nil (t : Nat) : L.IsAround [] t (L.count + 1) :=
  ⟨nofun, .nil, nofun, Nat.lt_succ_self _⟩

/-- There are no more types around than there are types, so the fuel does not run out. -/
theorem IsAround.fuel_ne_zero (h : L.IsAround visiting t fuel) : fuel ≠ 0 := by
  rintro rfl
  -- no room is left for a type that is not around already
  have hLength := length_le_of_nodup_of_lt h.nodup h.types
  have hFuel := h.fuel
  omega

/-- A type that is nested next is none of those around it. -/
theorem IsAround.not_mem (h : L.IsAround visiting t fuel) (hUnfolds : L.Unfolds t)
    (hc : L.Embeds t c) : c ∉ t :: visiting := by
  intro hMem
  -- `c` is around `t` and nested in it, so `t` would be nested in itself
  refine hUnfolds t .refl ?_
  rcases List.mem_cons.mp hMem with rfl | hMem
  · exact .single hc
  · exact .head hc (h.nested c hMem)

/-- One type deeper there is one type more around, and less fuel. -/
theorem IsAround.embeds (h : L.IsAround visiting t (fuel + 1)) (hUnfolds : L.Unfolds t)
    (hc : L.Embeds t c) : L.IsAround (t :: visiting) c fuel where
  nested v hv := by
    rcases List.mem_cons.mp hv with rfl | hv
    · exact .single hc
    · exact .tail (h.nested v hv) hc
  nodup := List.nodup_cons.mpr ⟨fun hMem => hUnfolds t .refl (h.nested t hMem), h.nodup⟩
  types := List.forall_mem_cons.mpr ⟨hc.lt_count.1, h.types⟩
  fuel := by
    have hFuel := h.fuel
    rw [List.length_cons]
    omega

/-- The header is counted once, if at all. -/
theorem fieldOffset_with_header (L : Layout) (t f : Nat) :
    L.fieldOffset t f true = L.fieldOffset t f false + if L.isValue t then 0 else L.objectHeader := by
  unfold fieldOffset
  cases L.isValue t <;> simp

end Layout

/-! ## Slots of parts -/

section

variable {L : Layout} {r : Ruleset} {t : Nat}

/-- The slots of field `f` of a type at an offset: its own slot, and for a value those of its type as
`part` says. -/
def fieldSlotsWith (L : Layout) (r : Ruleset) (part : Nat → Int32 → List OffsetSlot) (t : Nat)
    (base : Int32) (f : Nat) : List OffsetSlot :=
  let slot := fieldSlot r t f (base + L.fieldOffset t f true)
  if L.isStatic t f then []
  else if L.isValueField t f then
    (if slot.flags.isDefault then [] else [slot]) ++
      (if L.fieldType t f = t then [] else part (L.fieldType t f) (base + L.fieldOffset t f true))
  else [slot]

/-- The slots of a type at an offset, with those of its parts as `part` says. -/
def slotsWith (L : Layout) (r : Ruleset) (part : Nat → Int32 → List OffsetSlot) (t : Nat) (base : Int32) :
    List OffsetSlot :=
  (L.base? t).elim [] (fun b => part b base) ++
    (List.range (L.fields t).length).flatMap (fieldSlotsWith L r part t base)

/-- Where no type is nested in itself, the types around are not looked at. -/
theorem collectSlots_eq_slotsWith {visiting : List Nat} {fuel : Nat}
    (h : L.IsAround visiting t (fuel + 1)) (hUnfolds : L.Unfolds t) (base : Int32) :
    collectSlots L r (fuel + 1) visiting t base =
      slotsWith L r (collectSlots L r fuel (t :: visiting)) t base := by
  have hNotAround : ∀ c, L.Embeds t c → ¬(t :: visiting).contains c = true := by
    intro c hc hMem
    exact h.not_mem hUnfolds hc (List.contains_iff_mem.mp hMem)
  rw [collectSlots, slotsWith]
  congr 1
  · -- the base type
    cases hBase : L.base? t with
    | none => rfl
    | some b => exact if_neg (hNotAround b (.base hBase))
  · -- the fields, one by one
    refine List.flatMap_congr fun f hf => ?_
    have hField := List.mem_range.mp hf
    rw [fieldSlotsWith]
    cases hStatic : L.isStatic t f with
    | true => rfl
    | false =>
      show (if L.isValueField t f then _ else _) = if L.isValueField t f then _ else _
      cases hValue : L.isValueField t f with
      | false => rfl
      | true =>
        simp only [if_true]
        congr 1
        by_cases hSame : L.fieldType t f = t
        · -- a field of the type itself
          have hMem : (t :: visiting).contains (L.fieldType t f) = true := by
            rw [hSame, List.contains_iff_mem]
            exact List.mem_cons_self
          rw [if_pos hSame, if_pos hMem]
        · rw [if_neg hSame, if_neg (hNotAround _ (.value hField hStatic hValue hSame))]

/-- Slots are moved by the sum. -/
theorem shiftSlot_shiftSlot (a b : Int32) (slot : OffsetSlot) :
    shiftSlot a (shiftSlot b slot) = shiftSlot (b + a) slot := by
  simp only [shiftSlot, Int32.add_assoc]

/-- Where the slot of a field lies in the end counts, not how it got there. -/
theorem shiftSlot_fieldSlot {f : Nat} {offset offset' shift shift' : Int32}
    (h : offset + shift = offset' + shift') :
    shiftSlot shift (fieldSlot r t f offset) = shiftSlot shift' (fieldSlot r t f offset') := by
  simp only [shiftSlot, fieldSlot, h]

section

variable {part part' : Nat → Int32 → List OffsetSlot} {shift shift' base base' : Int32}

/-- If the slots of all parts are moved to the same places, so are those of a field. -/
theorem map_shiftSlot_fieldSlotsWith {f : Nat} (hField : f < (L.fields t).length)
    (hPart : ∀ c, L.Embeds t c → ∀ offset offset', offset + shift = offset' + shift' →
      (part c offset).map (shiftSlot shift) = (part' c offset').map (shiftSlot shift'))
    (hBases : base + shift = base' + shift') :
    (fieldSlotsWith L r part t base f).map (shiftSlot shift) =
      (fieldSlotsWith L r part' t base' f).map (shiftSlot shift') := by
  have hOffsets : base + L.fieldOffset t f true + shift =
      base' + L.fieldOffset t f true + shift' := by
    rw [Int32.add_assoc, Int32.add_assoc, Int32.add_comm _ shift, Int32.add_comm _ shift',
      ← Int32.add_assoc, ← Int32.add_assoc, hBases]
  have hSlot := shiftSlot_fieldSlot (r := r) (t := t) (f := f) hOffsets
  have hFlags : (fieldSlot r t f (base + L.fieldOffset t f true)).flags =
      (fieldSlot r t f (base' + L.fieldOffset t f true)).flags := rfl
  unfold fieldSlotsWith
  cases hStatic : L.isStatic t f with
  | true => rfl
  | false =>
    cases hValue : L.isValueField t f with
    | false => exact congrArg (fun slot => [slot]) hSlot
    | true =>
      simp only [Bool.false_eq_true, if_false, if_true, List.map_append]
      congr 1
      · -- whether the field has a slot of its own does not depend on the offset
        rw [hFlags]
        split
        · rfl
        · exact congrArg (fun slot => [slot]) hSlot
      · split
        · rfl
        · next hOther => exact hPart _ (.value hField hStatic hValue hOther) _ _ hOffsets

/-- If the slots of all parts are moved to the same places, so are those of the type. -/
theorem map_shiftSlot_slotsWith
    (hPart : ∀ c, L.Embeds t c → ∀ offset offset', offset + shift = offset' + shift' →
      (part c offset).map (shiftSlot shift) = (part' c offset').map (shiftSlot shift'))
    (hBases : base + shift = base' + shift') :
    (slotsWith L r part t base).map (shiftSlot shift) =
      (slotsWith L r part' t base').map (shiftSlot shift') := by
  unfold slotsWith
  rw [List.map_append, List.map_append, List.map_flatMap, List.map_flatMap]
  congr 1
  · cases hBase : L.base? t with
    | none => rfl
    | some b => exact hPart b (.base hBase) base base' hBases
  · exact List.flatMap_congr fun f hf =>
      map_shiftSlot_fieldSlotsWith (List.mem_range.mp hf) hPart hBases

/-- The slots of a type are the same wherever it is laid out, with whatever types around. -/
theorem map_shiftSlot_collectSlots {fuel fuel' : Nat} {visiting visiting' : List Nat}
    (h : L.IsAround visiting t fuel) (h' : L.IsAround visiting' t fuel') (hUnfolds : L.Unfolds t)
    (hBases : base + shift = base' + shift') :
    (collectSlots L r fuel visiting t base).map (shiftSlot shift) =
      (collectSlots L r fuel' visiting' t base').map (shiftSlot shift') := by
  -- on the fuel, of which both sides have enough
  induction fuel generalizing fuel' visiting visiting' t base base' with
  | zero => exact absurd rfl h.fuel_ne_zero
  | succ fuel ih =>
    obtain ⟨fuel', rfl⟩ := Nat.exists_eq_succ_of_ne_zero h'.fuel_ne_zero
    rw [collectSlots_eq_slotsWith h hUnfolds, collectSlots_eq_slotsWith h' hUnfolds]
    refine map_shiftSlot_slotsWith (fun c hc offset offset' hOffsets => ?_) hBases
    exact ih (h.embeds hUnfolds hc) (h'.embeds hUnfolds hc) (hUnfolds.embeds hc) hOffsets

end

end

/-! ## Tables of parts -/

namespace OffsetTable

variable (o : OffsetTable)

/-- The slots that the base type gives to an instance. -/
def basePart (t : Nat) (base : Int32) : List OffsetSlot :=
  match o.layout.base? t with
  | some b => (o.objectSlots b base).1
  | none => []

/-- The slots that field `f` of type `t` gives to an instance. A reference has a slot. A value has one
if something is said about it, and gives those of its type unless that is `t` again. Only fields of
reference types lie behind a header. -/
def fieldPart (t : Nat) (base : Int32) (f : Nat) : List OffsetSlot :=
  let header := if o.layout.isValue t then 0 else o.layout.objectHeader
  let offset := base + (o.layout.fieldOffset t f false + header)
  let slot : Slot := ⟨t, some f⟩
  let own : OffsetSlot := ⟨offset, o.ruleset.flags slot, slot, offset.toNatClampNeg⟩
  if o.layout.isStatic t f then []
  else if o.layout.isValueField t f then
    (if own.flags.isDefault then [] else [own]) ++
      (if o.layout.fieldType t f = t then [] else (o.objectSlots (o.layout.fieldType t f) offset).1)
  else [own]

/-- What is asked for with an offset is moved by it. -/
theorem objectSlots_eq_map (type : Int) (base : Int32) :
    (o.objectSlots type base).1 = (o.objectSlots type 0).1.map (shiftSlot base) := by
  unfold objectSlots
  split
  · rfl
  · simp only [List.map_map, Function.comp_def, shiftSlot_shiftSlot, Int32.zero_add]

/-- An element that is a value has the slots of its type. -/
theorem elementSlots_eq_map {array element : Nat} (hElement : o.layout.element? array = some element)
    (hValue : o.layout.isValue element = true) (base : Int32) :
    (o.elementSlots array base).1 = (o.objectSlots element 0).1.map (shiftSlot base) := by
  rw [← objectSlots_eq_map]
  simp only [elementSlots, hElement, hValue, if_true]

theorem map_shiftSlot_zero (type : Int) (base : Int32) :
    (o.objectSlots type base).1.map (shiftSlot 0) = (o.objectSlots type base).1 := by
  rw [objectSlots_eq_map, List.map_map]
  simp only [Function.comp_def, shiftSlot_shiftSlot, Int32.add_zero]

/-- The part of a field, put in place. -/
theorem fieldPart_eq (t : Nat) (base : Int32) (f : Nat) :
    o.fieldPart t base f =
      (fieldSlotsWith o.layout o.ruleset (fun c offset => (o.objectSlots c offset).1) t base f).map
        (shiftSlot 0) := by
  have hOwn : ∀ offset : Int32, shiftSlot 0 (fieldSlot o.ruleset t f offset) =
      ⟨offset, o.ruleset.flags ⟨t, some f⟩, ⟨t, some f⟩, offset.toNatClampNeg⟩ := by
    intro offset
    simp only [shiftSlot, fieldSlot, Int32.add_zero]
  unfold fieldPart fieldSlotsWith
  rw [Layout.fieldOffset_with_header]
  cases o.layout.isStatic t f with
  | true => rfl
  | false =>
    cases o.layout.isValueField t f with
    | false => exact congrArg (fun slot => [slot]) (hOwn _).symm
    | true =>
      simp only [Bool.false_eq_true, if_false, if_true, List.map_append]
      congr 1
      · show (if (o.ruleset.flags ⟨t, some f⟩).isDefault then [] else _) =
          (if (o.ruleset.flags ⟨t, some f⟩).isDefault then [] else _).map (shiftSlot 0)
        split
        · rfl
        · exact congrArg (fun slot => [slot]) (hOwn _).symm
      · split
        · rfl
        · exact (map_shiftSlot_zero o _ _).symm

/-- **A table is put together from those of the parts.** Where no type is nested in itself, but for
fields of their own type, the slots of a type are those of its base type, and then those that its
fields give in their order. The slots of an element that is a value are those of its type, moved like
the slots of an instance. -/
theorem objectSlots_eq_parts :
    (∀ t < o.layout.count, o.layout.Unfolds t → ∀ base,
      (o.objectSlots t base).1 = o.basePart t base ++
        (List.range (o.layout.fields t).length).flatMap (o.fieldPart t base)) ∧
    (∀ array element, o.layout.element? array = some element → o.layout.isValue element = true →
      ∀ base, (o.elementSlots array base).1 = (o.objectSlots element 0).1.map (shiftSlot base)) ∧
    ∀ type base, (o.objectSlots type base).1 = (o.objectSlots type 0).1.map (shiftSlot base) := by
  refine ⟨fun t ht hUnfolds base => ?_, fun _ _ => o.elementSlots_eq_map, o.objectSlots_eq_map⟩
  have hAround := Layout.isAround_nil (L := o.layout) t
  -- the table of each part is made for itself, with nothing around it
  have hPart : ∀ c, o.layout.Embeds t c → ∀ offset offset', offset + base = offset' + 0 →
      (collectSlots o.layout o.ruleset o.layout.count [t] c offset).map (shiftSlot base) =
        (o.objectSlots c offset').1.map (shiftSlot 0) := by
    intro c hc offset offset' hOffsets
    have hInside := hAround.embeds hUnfolds hc
    have hAlone := Layout.isAround_nil (L := o.layout) c
    rw [map_shiftSlot_zero, objectSlots_eq hc.lt_count.2]
    exact map_shiftSlot_collectSlots hInside hAlone (hUnfolds.embeds hc)
      (hOffsets.trans (Int32.add_comm offset' 0))
  have hBases : 0 + base = base + 0 := Int32.add_comm 0 base
  rw [objectSlots_eq ht, slotsOf, collectSlots_eq_slotsWith hAround hUnfolds,
    map_shiftSlot_slotsWith hPart hBases, slotsWith, List.map_append, List.map_flatMap]
  congr 1
  · -- the part of the base type is where the instance is
    rw [basePart]
    cases o.layout.base? t with
    | none => rfl
    | some b => exact map_shiftSlot_zero o b base
  · exact List.flatMap_congr fun f _ => (o.fieldPart_eq t base f).symm

/-- A leaf is a node with one pair more. A pair has a key and a number, and a number one field, of its
own type. -/
def leafLayout : Layout where
  wordSize := .eight
  objectHeader := 16
  arrayHeader := 24
  types :=
    [⟨"", "Int", true, false, none, 4, [⟨"m_value", 0, 0, false, none⟩], none⟩,
      ⟨"", "Pair", true, false, none, 16,
        [⟨"key", 2, 0, false, none⟩, ⟨"count", 0, 8, false, none⟩], none⟩,
      ⟨"", "Node", false, false, none, 48,
        [⟨"left", 1, 0, false, none⟩, ⟨"right", 1, 16, false, none⟩], none⟩,
      ⟨"", "Leaf", false, false, some 2, 64,
        [⟨"root", 2, 0, true, none⟩, ⟨"extra", 1, 32, false, none⟩], none⟩,
      ⟨"", "Pair[]", false, true, some 1, 24, [], none⟩]
  sound := by decide

/-- A type of the leaves is nested only in those behind it. -/
theorem lt_of_embeds_leafLayout {t c : Nat} (h : leafLayout.Embeds t c) : c < t := by
  have hBases : ∀ t < 5, (leafLayout.base? t).all (· < t) = true := by decide
  have hValues : ∀ t < 5, ∀ f < (leafLayout.fields t).length, leafLayout.isValueField t f = true →
      leafLayout.fieldType t f ≠ t → leafLayout.fieldType t f < t := by decide
  have hType : t < 5 := h.lt_count.1
  cases h with
  | base hBase => simpa [hBase] using hBases t hType
  | value hField _ hValue hOther => exact hValues t hType _ hField hValue hOther

/-- Three keys in a leaf, two of them inherited, all from a pair; and one in an element of an array. -/
theorem objectSlots_leaf :
    leafLayout.Unfolds 3 ∧ leafLayout.element? 4 = some 1 ∧ leafLayout.isValue 1 = true ∧
      ((fresh leafLayout {}).objectSlots 3 0).1 = (fresh leafLayout {}).basePart 3 0 ++
        ((fresh leafLayout {}).fieldPart 3 0 0 ++ (fresh leafLayout {}).fieldPart 3 0 1) ∧
      (((fresh leafLayout {}).objectSlots 3 0).1.map (·.value)) = [16, 32, 48] ∧
      ((fresh leafLayout {}).elementSlots 4 8).1 =
        ((fresh leafLayout {}).objectSlots 1 0).1.map (shiftSlot 8) := by
  have hUnfolds : leafLayout.Unfolds 3 :=
    @Layout.unfolds_of_rank leafLayout id (fun _ _ => lt_of_embeds_leafLayout) 3
  obtain ⟨hParts, hElements, -⟩ := objectSlots_eq_parts (fresh leafLayout {})
  exact ⟨hUnfolds, rfl, rfl, hParts 3 (by decide) hUnfolds 0, by decide +kernel,
    hElements 4 1 rfl rfl 8⟩

end OffsetTable

end RefRules
