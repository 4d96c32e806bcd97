import RefRules.Proofs.Nesting

/-!
# RefRules — paths of nesting

An instance has the part of its base type and the values in its fields, these have parts again, and
values may be nested in each other without end. A table follows each path from part to part as long as
no type comes twice. There are no more types on such a path than in the layout, which bounds the
nesting, and every field at the end of one has its slot, once, however many paths lead to its type.

Main results:

* `collectWithin_eq` — no more nesting is needed than there are types;
* `collectSlots_eq_map` — the slots of a type are those of its places;
* `mem_placesIn_iff`, `nodup_placesIn` — which places there are, each once;
* `OffsetTable.table_eq_map_places` — the table of a type, by the paths of nesting.
-/

namespace RefRules

/-! ## Parts -/

/-- A part of an instance: that of its base type, or the value in a field. -/
inductive Part where
  | base
  | value (field : Nat)
  deriving DecidableEq

/-- A field of what a path from part to part ends at. -/
structure FieldPlace where
  path : List Part
  field : Nat
  deriving DecidableEq

namespace FieldPlace

/-- The place, seen from an instance that has the part. -/
def under (part : Part) (p : FieldPlace) : FieldPlace :=
  { p with path := part :: p.path }

theorem under_eq_under_iff {part part' : Part} {p p' : FieldPlace} :
    p.under part = p'.under part' ↔ part = part' ∧ p = p' := by
  obtain ⟨path, f⟩ := p
  obtain ⟨path', f'⟩ := p'
  simp [under, and_assoc]

theorem own_ne_under {f : Nat} {part : Part} {p : FieldPlace} :
    (⟨[], f⟩ : FieldPlace) ≠ p.under part := by
  simp [under]

end FieldPlace

namespace Layout

variable {L : Layout} {r : Ruleset} {t : Nat} {part : Part} {path : List Part} {visiting : List Nat}

/-- Instances of type `t` have the part. Static fields lie elsewhere, and a reference is no part. -/
inductive HasPart (L : Layout) (t : Nat) : Part → Prop
  | base {b : Nat} (hBase : L.base? t = some b) : HasPart L t .base
  | value {f : Nat} (hField : f < (L.fields t).length) (hStatic : L.isStatic t f = false)
      (hValue : L.isValueField t f = true) : HasPart L t (.value f)

/-- The type of a part. -/
def partType (L : Layout) (t : Nat) : Part → Nat
  | .base => (L.base? t).getD t
  | .value f => L.fieldType t f

/-- How far behind the start of an instance a part begins; that of the base type begins with it. -/
def partOffset (L : Layout) (t : Nat) : Part → Int
  | .base => 0
  | .value f => L.declaredOffset t f

/-- The types along a path from type `t` on, with `t`. -/
def pathTypes (L : Layout) : Nat → List Part → List Nat
  | t, [] => [t]
  | t, part :: path => t :: L.pathTypes (L.partType t part) path

/-- The type that a path from type `t` on ends at. -/
def pathEnd (L : Layout) : Nat → List Part → Nat
  | t, [] => t
  | t, part :: path => L.pathEnd (L.partType t part) path

/-- The sum of the offsets of the fields along a path. -/
def pathOffset (L : Layout) : Nat → List Part → Int
  | _, [] => 0
  | t, part :: path => L.partOffset t part + L.pathOffset (L.partType t part) path

/-- From type `t` on, each step of the path goes to a part. -/
inductive HasPath (L : Layout) : Nat → List Part → Prop
  | nil {t : Nat} : HasPath L t []
  | cons {t : Nat} {part : Part} {path : List Part} (hPart : L.HasPart t part)
      (hRest : HasPath L (L.partType t part) path) : HasPath L t (part :: path)

/-- A path of nesting goes from part to part, and it repeats no type. -/
structure IsNestingPath (L : Layout) (t : Nat) (path : List Part) : Prop where
  parts : L.HasPath t path
  nodup : (L.pathTypes t path).Nodup

/-- Field `f` of type `t` has a slot of its own: it is not static, and it is a reference or something
is said about it. -/
structure HasSlot (L : Layout) (r : Ruleset) (t f : Nat) : Prop where
  inRange : f < (L.fields t).length
  nonstatic : L.isStatic t f = false
  contributes : L.isValueField t f = false ∨ (r.flags ⟨t, some f⟩).isDefault = false

/-- The place is a field with a slot at the end of a path of nesting. -/
structure IsPlace (L : Layout) (r : Ruleset) (t : Nat) (p : FieldPlace) : Prop where
  path : L.IsNestingPath t p.path
  slot : L.HasSlot r (L.pathEnd t p.path) p.field

/-- The sum of the offsets of all fields along the path, and of the field at its end. -/
def placeOffset (L : Layout) (t : Nat) (p : FieldPlace) : Int :=
  L.pathOffset t p.path + L.declaredOffset (L.pathEnd t p.path) p.field

/-- The slot of a place, at the wrapped sum. -/
def slotAt (L : Layout) (r : Ruleset) (t : Nat) (p : FieldPlace) : OffsetSlot :=
  fieldSlot r (L.pathEnd t p.path) p.field (.ofInt (L.placeOffset t p))

/-- A slot lies at the exact sum when that is a number of 32 bits. -/
theorem toInt_slotAt_iff (L : Layout) (r : Ruleset) (t : Nat) (p : FieldPlace) :
    (L.slotAt r t p).value.toInt = L.placeOffset t p ↔
      Numeral.isInt32 (L.placeOffset t p) = true := by
  have hValue : (L.slotAt r t p).value = .ofInt (L.placeOffset t p) := rfl
  rw [hValue, Numeral.isInt32_iff]
  constructor
  · intro hExact
    have hLeast := (Int32.ofInt (L.placeOffset t p)).le_toInt
    have hMost := (Int32.ofInt (L.placeOffset t p)).toInt_lt
    omega
  · rintro ⟨hLeast, hMost⟩
    exact Int32.toInt_ofInt_of_le hLeast (Int.lt_add_one_of_le hMost)

theorem partType_lt (h : L.HasPart t part) : L.partType t part < L.count := by
  cases h with
  | base hBase =>
    rw [partType, hBase]
    exact (Embeds.base hBase).lt_count.2
  | value hField => exact fieldType_lt hField

theorem start_mem_pathTypes (L : Layout) (t : Nat) (path : List Part) : t ∈ L.pathTypes t path := by
  cases path <;> exact List.mem_cons_self

theorem length_pathTypes (L : Layout) (t : Nat) (path : List Part) :
    (L.pathTypes t path).length = path.length + 1 := by
  induction path generalizing t with
  | nil => rfl
  | cons part path ih => rw [pathTypes, List.length_cons, ih, List.length_cons]

theorem HasPath.lt_count (h : L.HasPath t path) (ht : t < L.count) :
    ∀ u ∈ L.pathTypes t path, u < L.count := by
  induction h with
  | nil => exact List.forall_mem_singleton.mpr ht
  | cons hPart _ ih => exact List.forall_mem_cons.mpr ⟨ht, ih (partType_lt hPart)⟩

/-- A path of nesting has at most as many types as there are. -/
theorem IsNestingPath.length_lt (h : L.IsNestingPath t path) (ht : t < L.count) :
    path.length < L.count := by
  have hLength := length_le_of_nodup_of_lt h.nodup (h.parts.lt_count ht)
  rwa [length_pathTypes] at hLength

/-! ## Room for nesting -/

/-- Type `t` is laid out inside of the types `visiting`, none of which comes twice, and `depth` is
enough for all other types. -/
structure HasRoom (L : Layout) (visiting : List Nat) (t depth : Nat) : Prop where
  nodup : (t :: visiting).Nodup
  types : ∀ u ∈ t :: visiting, u < L.count
  -- what is around takes the rest of the depth
  depth : L.count ≤ depth + visiting.length

variable {depth : Nat}

theorem hasRoom_nil (ht : t < L.count) (hDepth : L.count ≤ depth) : L.HasRoom [] t depth :=
  ⟨List.nodup_singleton t, List.forall_mem_singleton.mpr ht, hDepth⟩

/-- Type `t` itself takes some of the depth. -/
theorem HasRoom.depth_ne_zero (h : L.HasRoom visiting t depth) : depth ≠ 0 := by
  rintro rfl
  -- otherwise there were more types around than there are
  have hLength := length_le_of_nodup_of_lt h.nodup h.types
  have hDepth := h.depth
  rw [List.length_cons] at hLength
  omega

/-- A part of a new type takes one from the depth, and is inside of one type more. -/
theorem HasRoom.enter (h : L.HasRoom visiting t (depth + 1)) {c : Nat} (hc : c < L.count)
    (hNew : c ∉ t :: visiting) : L.HasRoom (t :: visiting) c depth where
  nodup := List.nodup_cons.mpr ⟨hNew, h.nodup⟩
  types := List.forall_mem_cons.mpr ⟨hc, h.types⟩
  depth := by
    have hDepth := h.depth
    rw [List.length_cons]
    omega

end Layout

/-! ## Parts that are not around yet -/

/-- What `part` says about a type, and nothing about those around. -/
def newPart (around : List Nat) (part : Nat → Int32 → List OffsetSlot) (c : Nat) (offset : Int32) :
    List OffsetSlot :=
  if around.contains c then [] else part c offset

section

variable {L : Layout} {r : Ruleset} {t : Nat} {base : Int32} {visiting : List Nat}

/-- A type is not nested in itself again, whatever else is around. -/
theorem fieldSlotsWith_newPart (part : Nat → Int32 → List OffsetSlot) (f : Nat) :
    fieldSlotsWith L r (newPart (t :: visiting) part) t base f =
      let slot := fieldSlot r t f (base + L.fieldOffset t f true)
      if L.isStatic t f then []
      else if L.isValueField t f then
        (if slot.flags.isDefault then [] else [slot]) ++
          newPart (t :: visiting) part (L.fieldType t f) (base + L.fieldOffset t f true)
      else [slot] := by
  -- the check for the type itself is part of the one for all types around
  have hSelf : (if L.fieldType t f = t then []
      else newPart (t :: visiting) part (L.fieldType t f) (base + L.fieldOffset t f true)) =
      newPart (t :: visiting) part (L.fieldType t f) (base + L.fieldOffset t f true) := by
    split
    · next hSame => simp [newPart, hSame]
    · rfl
  rw [fieldSlotsWith, hSelf]

/-- The slots of a type, with those of its parts, are collected one type deeper. -/
theorem collectSlots_succ (fuel : Nat) :
    collectSlots L r (fuel + 1) visiting t base =
      slotsWith L r (newPart (t :: visiting) (collectSlots L r fuel (t :: visiting))) t base := by
  rw [collectSlots, slotsWith]
  congr 1
  · cases L.base? t <;> rfl
  · refine List.flatMap_congr fun f _ => ?_
    rw [fieldSlotsWith_newPart]
    rfl

end

/-! ## Nesting that comes to its end -/

/-- The slots of field `f` of a type at an offset, where those of a value can be too deep. -/
def fieldSlotsWithin (L : Layout) (r : Ruleset) (part : Nat → Int32 → Except Nat (List OffsetSlot))
    (t : Nat) (base : Int32) (f : Nat) : Except Nat (List OffsetSlot) :=
  let offset := base + L.fieldOffset t f true
  let slot := fieldSlot r t f offset
  if L.isStatic t f then .ok []
  else if L.isValueField t f then
    (part (L.fieldType t f) offset).map fun inside =>
      (if slot.flags.isDefault then [] else [slot]) ++ inside
  else .ok [slot]

/-- The slots of a type at an offset, where those of a part can be too deep. -/
def slotsWithin (L : Layout) (r : Ruleset) (part : Nat → Int32 → Except Nat (List OffsetSlot))
    (t : Nat) (base : Int32) : Except Nat (List OffsetSlot) := do
  let inherited ← (L.base? t).elim (.ok []) fun b => part b base
  let own ← (List.range (L.fields t).length).mapM (fieldSlotsWithin L r part t base)
  return inherited ++ own.flatten

/-- The slots of type `t` from `base` on, collected with types nested in each other up to `depth`
deep; if there is more to nest, the type that is too deep. -/
def collectWithin (L : Layout) (r : Ruleset) :
    Nat → List Nat → Nat → Int32 → Except Nat (List OffsetSlot)
  | 0, _, t, _ => .error t
  | depth + 1, visiting, t, base =>
    let part := fun c offset =>
      if (t :: visiting).contains c then .ok [] else collectWithin L r depth (t :: visiting) c offset
    slotsWithin L r part t base

section

variable {L : Layout} {r : Ruleset} {t : Nat} {visiting : List Nat} {base : Int32}

/-- If no part is too deep, then nothing is. -/
theorem slotsWithin_eq_ok {within : Nat → Int32 → Except Nat (List OffsetSlot)}
    {part : Nat → Int32 → List OffsetSlot}
    (h : ∀ c < L.count, ∀ offset, within c offset = .ok (newPart (t :: visiting) part c offset)) :
    slotsWithin L r within t base = .ok (slotsWith L r (newPart (t :: visiting) part) t base) := by
  have hInherited : (L.base? t).elim (.ok []) (fun b => within b base) =
      .ok ((L.base? t).elim [] fun b => newPart (t :: visiting) part b base) := by
    cases hBase : L.base? t with
    | none => rfl
    | some b => exact h b (Layout.Embeds.base hBase).lt_count.2 base
  have hOwn : (List.range (L.fields t).length).mapM (fieldSlotsWithin L r within t base) =
      .ok ((List.range (L.fields t).length).map
        (fieldSlotsWith L r (newPart (t :: visiting) part) t base)) := by
    refine mapM_eq_ok fun f hf => ?_
    rw [fieldSlotsWithin, fieldSlotsWith_newPart, h _ (Layout.fieldType_lt (List.mem_range.mp hf))]
    dsimp only
    split
    · rfl
    · split <;> rfl
  rw [slotsWithin, slotsWith, hInherited, ok_bind, hOwn, ok_bind, List.flatMap_def]
  rfl

/-- No more nesting is needed than there are types, and what is collected is complete. -/
theorem collectWithin_eq {depth fuel : Nat} (h : L.HasRoom visiting t depth)
    (hFuel : L.HasRoom visiting t fuel) :
    collectWithin L r depth visiting t base = .ok (collectSlots L r fuel visiting t base) := by
  -- on the depth, of which both sides have enough
  induction depth generalizing fuel visiting t base with
  | zero => exact absurd rfl h.depth_ne_zero
  | succ depth ih =>
    obtain ⟨fuel, rfl⟩ := Nat.exists_eq_succ_of_ne_zero hFuel.depth_ne_zero
    rw [collectWithin, collectSlots_succ]
    refine slotsWithin_eq_ok fun c hc offset => ?_
    unfold newPart
    split
    · rfl
    · next hNew =>
      rw [List.contains_iff_mem] at hNew
      exact ih (h.enter hc hNew) (hFuel.enter hc hNew)

end

/-! ## Places -/

/-- The places in field `f` of a type: the field if it has a slot, and for a value those in it, as
`inside` says. -/
def fieldPlacesWith (L : Layout) (r : Ruleset) (inside : Nat → List FieldPlace) (t f : Nat) :
    List FieldPlace :=
  if L.isStatic t f then []
  else if L.isValueField t f then
    (if (r.flags ⟨t, some f⟩).isDefault then [] else [⟨[], f⟩]) ++
      (inside (L.fieldType t f)).map (.under (.value f))
  else [⟨[], f⟩]

/-- The places of a type, with those in its parts as `inside` says. -/
def placesWith (L : Layout) (r : Ruleset) (inside : Nat → List FieldPlace) (t : Nat) :
    List FieldPlace :=
  (L.base? t).elim [] (fun b => (inside b).map (.under .base)) ++
    (List.range (L.fields t).length).flatMap (fieldPlacesWith L r inside t)

/-- The places of type `t` inside of the types `visiting`, in the order of their slots. -/
def placesIn (L : Layout) (r : Ruleset) : Nat → List Nat → Nat → List FieldPlace
  | 0, _, _ => []
  | fuel + 1, visiting, t =>
    let inside := fun c =>
      if (t :: visiting).contains c then [] else placesIn L r fuel (t :: visiting) c
    placesWith L r inside t

section

variable {L : Layout} {r : Ruleset} {t : Nat}

/-- The slot of a place of a type that is laid out from `base` on. -/
def slotFrom (L : Layout) (r : Ruleset) (t : Nat) (base : Int32) (p : FieldPlace) : OffsetSlot :=
  fieldSlot r (L.pathEnd t p.path) p.field (base + .ofInt (L.placeOffset t p))

/-- A place in a part has the slot that it has where the part is laid out. -/
theorem slotFrom_under (base : Int32) (part : Part) (p : FieldPlace) :
    slotFrom L r t base (p.under part) =
      slotFrom L r (L.partType t part) (base + .ofInt (L.partOffset t part)) p := by
  simp only [slotFrom, FieldPlace.under, Layout.placeOffset, Layout.pathOffset, Layout.pathEnd,
    Int32.ofInt_add, Int32.add_assoc]

/-- A field of the type itself has its slot behind the base. -/
theorem slotFrom_own (base : Int32) (f : Nat) :
    slotFrom L r t base ⟨[], f⟩ = fieldSlot r t f (base + L.fieldOffset t f true) := by
  simp only [slotFrom, Layout.placeOffset, Layout.pathOffset, Layout.pathEnd, Int.zero_add,
    Layout.fieldOffset_eq]

/-- If the slots of each part are those of its places, so are the slots of the type. -/
theorem slotsWith_eq_map {part : Nat → Int32 → List OffsetSlot} {inside : Nat → List FieldPlace}
    {visiting : List Nat} {base : Int32}
    (h : ∀ p, newPart (t :: visiting) part (L.partType t p) (base + .ofInt (L.partOffset t p)) =
      (inside (L.partType t p)).map (slotFrom L r (L.partType t p) (base + .ofInt (L.partOffset t p)))) :
    slotsWith L r (newPart (t :: visiting) part) t base =
      (placesWith L r inside t).map (slotFrom L r t base) := by
  -- the slots of a part are those of the places that the type has in it
  have hPart : ∀ p, newPart (t :: visiting) part (L.partType t p) (base + .ofInt (L.partOffset t p)) =
      ((inside (L.partType t p)).map (.under p)).map (slotFrom L r t base) := by
    intro p
    rw [h p, List.map_map, Function.comp_def]
    simp only [slotFrom_under]
  rw [slotsWith, placesWith, List.map_append, List.map_flatMap]
  congr 1
  · -- the part of the base type begins where the instance does
    cases hBase : L.base? t with
    | none => rfl
    | some b =>
      have hInherited := hPart .base
      have hBegin : base + Int32.ofInt (L.partOffset t .base) = base := Int32.add_zero base
      rw [Layout.partType, hBase, hBegin] at hInherited
      exact hInherited
  · refine List.flatMap_congr fun f _ => ?_
    rw [fieldSlotsWith_newPart, fieldPlacesWith]
    cases L.isStatic t f with
    | true => rfl
    | false =>
      cases L.isValueField t f with
      | false => exact congrArg (fun slot => [slot]) (slotFrom_own base f).symm
      | true =>
        simp only [Bool.false_eq_true, if_false, if_true, List.map_append]
        have hValue := hPart (.value f)
        rw [Layout.partOffset, ← Layout.fieldOffset_eq] at hValue
        refine congrArg₂ (· ++ ·) ?_ hValue
        -- both ask for what is said about the field
        show (if (r.flags ⟨t, some f⟩).isDefault then [] else _) = _
        split
        · rfl
        · exact congrArg (fun slot => [slot]) (slotFrom_own base f).symm

/-- The slots of a type are those of its places. -/
theorem collectSlots_eq_map (fuel : Nat) (visiting : List Nat) (base : Int32) :
    collectSlots L r fuel visiting t base =
      (placesIn L r fuel visiting t).map (slotFrom L r t base) := by
  induction fuel generalizing visiting t base with
  | zero => rfl
  | succ fuel ih =>
    rw [collectSlots_succ, placesIn]
    refine slotsWith_eq_map fun p => ?_
    unfold newPart
    split
    · rfl
    · exact ih _ _

end

/-! ## Which places there are -/

namespace Layout

variable {L : Layout} {r : Ruleset} {t f : Nat} {part : Part} {path : List Part} {visiting : List Nat}

/-- A path of nesting from type `t` on that keeps clear of the types `visiting`. -/
structure IsPathAround (L : Layout) (visiting : List Nat) (t : Nat) (path : List Part) : Prop where
  nesting : L.IsNestingPath t path
  avoids : ∀ u ∈ L.pathTypes t path, u ∉ visiting

theorem isPathAround_nil_iff : L.IsPathAround visiting t [] ↔ t ∉ visiting :=
  ⟨fun h => h.avoids t (L.start_mem_pathTypes t []),
    fun h => ⟨⟨.nil, List.nodup_singleton t⟩, List.forall_mem_singleton.mpr h⟩⟩

/-- One part further, the type is one of those to keep clear of. -/
theorem isPathAround_cons_iff :
    L.IsPathAround visiting t (part :: path) ↔
      t ∉ visiting ∧ L.HasPart t part ∧ L.IsPathAround (t :: visiting) (L.partType t part) path := by
  constructor
  · rintro ⟨⟨hParts, hNodup⟩, hAvoids⟩
    obtain ⟨hNew, hRest⟩ := List.nodup_cons.mp hNodup
    obtain ⟨hHere, hLater⟩ := List.forall_mem_cons.mp hAvoids
    cases hParts with
    | cons hPart hParts =>
      refine ⟨hHere, hPart, ⟨hParts, hRest⟩, fun u hu hMem => ?_⟩
      rcases List.mem_cons.mp hMem with rfl | hMem
      · exact hNew hu
      · exact hLater u hu hMem
  · rintro ⟨hHere, hPart, ⟨hParts, hRest⟩, hAvoids⟩
    refine ⟨⟨.cons hPart hParts, List.nodup_cons.mpr ⟨fun hMem => ?_, hRest⟩⟩,
      List.forall_mem_cons.mpr ⟨hHere, fun u hu hMem => ?_⟩⟩
    · exact hAvoids t hMem List.mem_cons_self
    · exact hAvoids u hu (List.mem_cons_of_mem t hMem)

end Layout

section

variable {L : Layout} {r : Ruleset} {t f : Nat} {inside : Nat → List FieldPlace}

/-- A place in field `f` is its own, or one in its value. -/
theorem mem_fieldPlacesWith_iff {p : FieldPlace} :
    p ∈ fieldPlacesWith L r inside t f ↔ L.isStatic t f = false ∧
      (p = ⟨[], f⟩ ∧ (L.isValueField t f = false ∨ (r.flags ⟨t, some f⟩).isDefault = false) ∨
        L.isValueField t f = true ∧ ∃ q ∈ inside (L.fieldType t f), q.under (.value f) = p) := by
  unfold fieldPlacesWith
  cases hStatic : L.isStatic t f with
  | true => simp
  | false =>
    cases hValue : L.isValueField t f with
    | false => simp
    | true => cases hFlags : (r.flags ⟨t, some f⟩).isDefault <;> simp

/-- The places of a type are its own and those in its parts. -/
theorem mem_placesWith_iff {p : FieldPlace} :
    p ∈ placesWith L r inside t ↔
      (∃ f, L.HasSlot r t f ∧ p = ⟨[], f⟩) ∨
        ∃ part, L.HasPart t part ∧ ∃ q ∈ inside (L.partType t part), q.under part = p := by
  rw [placesWith, List.mem_append, List.mem_flatMap]
  constructor
  · rintro (hInherited | ⟨f, hField, hMem⟩)
    · cases hBase : L.base? t with
      | none => simp [hBase] at hInherited
      | some b =>
        rw [hBase, Option.elim_some, List.mem_map] at hInherited
        refine .inr ⟨.base, .base hBase, ?_⟩
        rw [Layout.partType, hBase]
        exact hInherited
    · rw [List.mem_range] at hField
      obtain ⟨hStatic, ⟨rfl, hSlot⟩ | ⟨hValue, hInside⟩⟩ := mem_fieldPlacesWith_iff.mp hMem
      · exact .inl ⟨f, ⟨hField, hStatic, hSlot⟩, rfl⟩
      · exact .inr ⟨.value f, .value hField hStatic hValue, hInside⟩
  · rintro (⟨f, ⟨hField, hStatic, hSlot⟩, rfl⟩ | ⟨part, hPart, hInside⟩)
    · exact .inr ⟨f, List.mem_range.mpr hField,
        mem_fieldPlacesWith_iff.mpr ⟨hStatic, .inl ⟨rfl, hSlot⟩⟩⟩
    · cases hPart with
      | base hBase =>
        rw [Layout.partType, hBase] at hInside
        rw [hBase, Option.elim_some, List.mem_map]
        exact .inl hInside
      | @value f hField hStatic hValue =>
        exact .inr ⟨f, List.mem_range.mpr hField,
          mem_fieldPlacesWith_iff.mpr ⟨hStatic, .inr ⟨hValue, hInside⟩⟩⟩

theorem own_mem_placesWith_iff : ⟨[], f⟩ ∈ placesWith L r inside t ↔ L.HasSlot r t f := by
  rw [mem_placesWith_iff]
  constructor
  · rintro (⟨g, hSlot, hEq⟩ | ⟨part, -, q, -, hEq⟩)
    · rw [FieldPlace.mk.injEq] at hEq
      exact hEq.2 ▸ hSlot
    · exact absurd hEq.symm FieldPlace.own_ne_under
  · intro hSlot
    exact .inl ⟨f, hSlot, rfl⟩

theorem under_mem_placesWith_iff {part : Part} {p : FieldPlace} :
    p.under part ∈ placesWith L r inside t ↔
      L.HasPart t part ∧ p ∈ inside (L.partType t part) := by
  rw [mem_placesWith_iff]
  constructor
  · rintro (⟨g, -, hEq⟩ | ⟨part', hPart, q, hq, hEq⟩)
    · exact absurd hEq.symm FieldPlace.own_ne_under
    · obtain ⟨rfl, rfl⟩ := FieldPlace.under_eq_under_iff.mp hEq
      exact ⟨hPart, hq⟩
  · rintro ⟨hPart, hp⟩
    exact .inr ⟨part, hPart, p, hp, rfl⟩

/-- The places are the fields with slots at the ends of the paths that are clear of the types around,
if the fuel is enough for the path. -/
theorem mem_placesIn_iff {fuel : Nat} {visiting : List Nat} (ht : t ∉ visiting) {p : FieldPlace} :
    p ∈ placesIn L r fuel visiting t ↔
      p.path.length < fuel ∧ L.IsPathAround visiting t p.path ∧
        L.HasSlot r (L.pathEnd t p.path) p.field := by
  obtain ⟨path, f⟩ := p
  -- on the fuel, of which each part of the path takes one
  induction fuel generalizing visiting t path with
  | zero => simp [placesIn]
  | succ fuel ih =>
    rw [placesIn]
    cases path with
    | nil =>
      rw [own_mem_placesWith_iff, Layout.isPathAround_nil_iff]
      simp only [List.length_nil, Nat.zero_lt_succ, true_and, ht, not_false_eq_true, Layout.pathEnd]
    | cons part path =>
      show FieldPlace.under part ⟨path, f⟩ ∈ placesWith L r _ t ↔ _
      rw [under_mem_placesWith_iff]
      simp only [List.contains_iff_mem, Layout.isPathAround_cons_iff, ht, not_false_eq_true, true_and,
        List.length_cons, Nat.succ_lt_succ_iff, Layout.pathEnd]
      by_cases hMem : L.partType t part ∈ t :: visiting
      · -- no path goes on from a type that is around
        have hNone : ¬L.IsPathAround (t :: visiting) (L.partType t part) path :=
          fun hPath => hPath.avoids _ (L.start_mem_pathTypes _ path) hMem
        simp [hMem, hNone]
      · rw [if_neg hMem, ih hMem]
        exact and_left_comm.trans (and_congr_right fun _ => and_assoc.symm)

/-- What lies in a field lies in no other. -/
theorem eq_of_mem_fieldPlacesWith {g : Nat} {p : FieldPlace} (hf : p ∈ fieldPlacesWith L r inside t f)
    (hg : p ∈ fieldPlacesWith L r inside t g) : f = g := by
  obtain ⟨-, ⟨rfl, -⟩ | ⟨-, q, -, rfl⟩⟩ := mem_fieldPlacesWith_iff.mp hf
  · obtain ⟨-, ⟨hEq, -⟩ | ⟨-, q, -, hEq⟩⟩ := mem_fieldPlacesWith_iff.mp hg
    · exact (FieldPlace.mk.inj hEq).2
    · exact absurd hEq.symm FieldPlace.own_ne_under
  · obtain ⟨-, ⟨hEq, -⟩ | ⟨-, q', -, hEq⟩⟩ := mem_fieldPlacesWith_iff.mp hg
    · exact absurd hEq.symm FieldPlace.own_ne_under
    · exact (Part.value.inj (FieldPlace.under_eq_under_iff.mp hEq).1).symm

theorem nodup_map_under {places : List FieldPlace} (h : places.Nodup) (part : Part) :
    (places.map (FieldPlace.under part)).Nodup :=
  h.map fun _ _ hEq => (FieldPlace.under_eq_under_iff.mp hEq).2

theorem nodup_fieldPlacesWith (h : ∀ c, (inside c).Nodup) (t f : Nat) :
    (fieldPlacesWith L r inside t f).Nodup := by
  unfold fieldPlacesWith
  split
  · exact .nil
  · split
    · refine List.nodup_append.mpr ⟨?_, nodup_map_under (h _) _, fun p hp q hq => ?_⟩
      · split
        · exact .nil
        · exact List.nodup_singleton _
      · -- the field itself is none of the places in its value
        obtain ⟨q', -, rfl⟩ := List.mem_map.mp hq
        split at hp
        · cases hp
        · rw [List.mem_singleton.mp hp]
          exact FieldPlace.own_ne_under
    · exact List.nodup_singleton _

/-- If no part has a place twice, then the type has none twice. -/
theorem nodup_placesWith (h : ∀ c, (inside c).Nodup) (t : Nat) : (placesWith L r inside t).Nodup := by
  refine List.nodup_append.mpr ⟨?_,
    List.nodup_flatMap.mpr ⟨fun f _ => nodup_fieldPlacesWith h t f, ?_⟩, fun p hp q hq => ?_⟩
  · cases L.base? t with
    | none => exact .nil
    | some b => exact nodup_map_under (h b) .base
  · refine List.nodup_range.pairwise_of_forall_ne fun f _ g _ hOther p hf hg => ?_
    exact hOther (eq_of_mem_fieldPlacesWith hf hg)
  · -- what the base type gives lies in no field
    obtain ⟨f, -, hq⟩ := List.mem_flatMap.mp hq
    rintro rfl
    cases hBase : L.base? t with
    | none => simp [hBase] at hp
    | some b =>
      rw [hBase] at hp
      obtain ⟨p', -, rfl⟩ := List.mem_map.mp hp
      obtain ⟨-, ⟨hEq, -⟩ | ⟨-, q', -, hEq⟩⟩ := mem_fieldPlacesWith_iff.mp hq
      · exact FieldPlace.own_ne_under hEq.symm
      · cases (FieldPlace.under_eq_under_iff.mp hEq).1

theorem nodup_placesIn (fuel : Nat) (visiting : List Nat) (t : Nat) :
    (placesIn L r fuel visiting t).Nodup := by
  induction fuel generalizing visiting t with
  | zero => exact .nil
  | succ fuel ih =>
    refine nodup_placesWith (fun c => ?_) t
    split
    · exact .nil
    · exact ih _ c

/-- The places of a type that there is. -/
theorem mem_placesIn_nil_iff (ht : t < L.count) {p : FieldPlace} :
    p ∈ placesIn L r (L.count + 1) [] t ↔ L.IsPlace r t p := by
  rw [mem_placesIn_iff List.not_mem_nil]
  constructor
  · rintro ⟨-, hPath, hSlot⟩
    exact ⟨hPath.nesting, hSlot⟩
  · rintro ⟨hPath, hSlot⟩
    -- no path is too long for the fuel
    exact ⟨Nat.lt_succ_of_lt (hPath.length_lt ht), ⟨hPath, fun _ _ => List.not_mem_nil⟩, hSlot⟩

end

/-! ## Tables -/

/-- **The table of a type has a slot for each place.** It is collected with types nested in each other
no deeper than there are types, also if values are nested in each other without end. Its slots are
those of the places of the type, each once: of the fields with slots at the ends of all paths from part
to part that repeat no type, at the sums of the offsets along the paths as far as these are numbers of
32 bits. -/
theorem OffsetTable.table_eq_map_places (o : OffsetTable) {t : Nat} (ht : t < o.layout.count) :
    (∀ depth, o.layout.count ≤ depth →
      collectWithin o.layout o.ruleset depth [] t 0 = .ok (o.table t).1) ∧
    ∃ places : List FieldPlace, places.Nodup ∧
      (∀ p, p ∈ places ↔ o.layout.IsPlace o.ruleset t p) ∧
      (o.table t).1 = places.map (o.layout.slotAt o.ruleset t) ∧
      ∀ p ∈ places, (o.layout.slotAt o.ruleset t p).value.toInt = o.layout.placeOffset t p ↔
        Numeral.isInt32 (o.layout.placeOffset t p) = true := by
  have hTable : (o.table t).1 = collectSlots o.layout o.ruleset (o.layout.count + 1) [] t 0 :=
    o.table_eq t
  refine ⟨fun depth hDepth => ?_, placesIn o.layout o.ruleset (o.layout.count + 1) [] t,
    nodup_placesIn _ _ t, fun p => mem_placesIn_nil_iff ht, ?_,
    fun p _ => Layout.toInt_slotAt_iff o.layout o.ruleset t p⟩
  · rw [hTable]
    exact collectWithin_eq (Layout.hasRoom_nil ht hDepth) (Layout.hasRoom_nil ht (Nat.le_succ _))
  · rw [hTable, collectSlots_eq_map]
    refine List.map_congr_left fun p _ => ?_
    rw [slotFrom, Layout.slotAt, Int32.zero_add]

namespace OffsetTable

/-- A ring and a link are nested in each other. A node has one of each, and its base type refers to
nodes. -/
def ringLayout : Layout where
  wordSize := .eight
  objectHeader := 16
  arrayHeader := 24
  types :=
    [⟨"", "Ring", true, false, none, 24,
        [⟨"first", 3, 0, false, none⟩, ⟨"link", 1, 8, false, none⟩], none⟩,
      ⟨"", "Link", true, false, none, 24,
        [⟨"ring", 0, 0, false, none⟩, ⟨"target", 3, 16, false, none⟩], none⟩,
      ⟨"", "Object", false, false, none, 24, [⟨"owner", 3, 0, false, none⟩], none⟩,
      ⟨"", "Node", false, false, some 2, 72,
        [⟨"ring", 0, 8, false, none⟩, ⟨"link", 1, 32, false, none⟩, ⟨"root", 3, 0, true, none⟩],
        none⟩]
  sound := by decide

/-- Both in the link of the node's ring and in the ring of its link there is a reference. -/
theorem table_eq_map_places_ring :
    3 < ringLayout.count ∧
      ((fresh ringLayout {}).table 3).1.map (·.value) = [16, 24, 48, 48, 64] ∧
      collectWithin ringLayout {} 4 [] 3 0 = .ok ((fresh ringLayout {}).table 3).1 ∧
      ∃ places : List FieldPlace, places.Nodup ∧
        ⟨[.value 0, .value 1], 1⟩ ∈ places ∧ ⟨[.value 1, .value 0], 0⟩ ∈ places ∧
        ((fresh ringLayout {}).table 3).1 = places.map (ringLayout.slotAt {} 3) ∧
        (ringLayout.slotAt {} 3 ⟨[.value 1, .value 0], 0⟩).value.toInt = 32 + 16 + 0 + 0 := by
  have ht : 3 < ringLayout.count := by decide
  obtain ⟨hDepth, places, hNodup, hPlaces, hTable, hSums⟩ :=
    table_eq_map_places (fresh ringLayout {}) ht
  have hRingLink : ringLayout.HasPath 3 [.value 0, .value 1] :=
    .cons (.value (by decide) rfl rfl) (.cons (.value (by decide) rfl rfl) .nil)
  have hLinkRing : ringLayout.HasPath 3 [.value 1, .value 0] :=
    .cons (.value (by decide) rfl rfl) (.cons (.value (by decide) rfl rfl) .nil)
  have hInLink : ⟨[.value 1, .value 0], 0⟩ ∈ places :=
    (hPlaces _).mpr ⟨⟨hLinkRing, by decide⟩, ⟨by decide, rfl, .inl rfl⟩⟩
  exact ⟨ht, by decide +kernel, hDepth 4 (by decide), places, hNodup,
    (hPlaces _).mpr ⟨⟨hRingLink, by decide⟩, ⟨by decide, rfl, .inl rfl⟩⟩, hInLink, hTable,
    (hSums _ hInLink).mpr (by decide)⟩

end OffsetTable

end RefRules
