import RefRules.Ruleset.Basic

/-!
# RefRules — pointer offsets

Where the pointers and classified values of an instance lie: those of the base type first, then
the fields in order, with the slots of embedded values in place. Tables are made when a type is
first asked for and kept.

Main definitions:

* `collectSlots` — the slots of a type;
* `OffsetTable.objectSlots`, `OffsetTable.elementSlots` — the slots of an instance and of an element
  of an array, with the tables made so far.
-/

namespace RefRules

/-- A slot at an offset, a number of 32 bits. -/
abbrev OffsetSlot := Placed Int32

/-! ## Slots of a type -/

/-- A field of a type at an offset. -/
def fieldSlot (r : Ruleset) (t f : Nat) (offset : Int32) : OffsetSlot :=
  let slot : Slot := ⟨t, some f⟩
  ⟨offset, r.flags slot, slot, wrap64 offset⟩

/-- The slots of type `t` from `base` on, inside of the types `visiting`, each of which is laid out
once along a path. `fuel` bounds the depth. -/
def collectSlots (L : Layout) (r : Ruleset) : Nat → List Nat → Nat → Int32 → List OffsetSlot
  | 0, _, _, _ => []
  | fuel + 1, visiting, t, base =>
    let visiting := t :: visiting
    let inherited :=
      match L.base? t with
      | some b => if visiting.contains b then [] else collectSlots L r fuel visiting b base
      | none => []
    let own := (List.range (L.fields t).length).flatMap fun f =>
      if L.isStatic t f then []
      else
        let offset := base + L.fieldOffset t f true
        let slot := fieldSlot r t f offset
        let fieldType := L.fieldType t f
        if L.isValue fieldType then
          (if slot.flags.isDefault then [] else [slot]) ++
            (if visiting.contains fieldType then []
              else collectSlots L r fuel visiting fieldType offset)
        else [slot]
    inherited ++ own

/-- The slots of an instance of type `t`. -/
def slotsOf (L : Layout) (r : Ruleset) (t : Nat) : List OffsetSlot :=
  collectSlots L r (L.count + 1) [] t 0

/-- The slot moved by `base`; a position does not go below zero. -/
def shiftSlot (base : Int32) (slot : OffsetSlot) : OffsetSlot :=
  { slot with value := slot.value + base, position := (slot.value + base).toNatClampNeg }

/-! ## Tables -/

/-- The tables made so far for a ruleset, each with its type. -/
structure OffsetTable where
  layout : Layout
  ruleset : Ruleset
  tables : List (Nat × List OffsetSlot) := []
  faithful : ∀ e ∈ tables, e.2 = slotsOf layout ruleset e.1 := by simp

namespace OffsetTable

/-- No table has been made yet. -/
def fresh (L : Layout) (r : Ruleset) : OffsetTable where
  layout := L
  ruleset := r

/-- The table of type `t`, made now if it is not there yet. -/
def table (o : OffsetTable) (t : Nat) : List OffsetSlot × OffsetTable :=
  match o.tables.lookup t with
  | some slots => (slots, o)
  | none =>
    let slots := slotsOf o.layout o.ruleset t
    (slots, { o with
      tables := o.tables ++ [(t, slots)]
      faithful := by
        intro e he
        rcases List.mem_append.mp he with h | h
        · exact o.faithful e h
        · rw [List.mem_singleton.mp h] })

/-- The slots of an instance of a type, moved by `base`; what is no type has none. -/
def objectSlots (o : OffsetTable) (type : Int) (base : Int32) : List OffsetSlot × OffsetTable :=
  match o.layout.index? type with
  | none => ([], o)
  | some t =>
    let (slots, o) := o.table t
    (slots.map (shiftSlot base), o)

/-- The slots of one element of the array type `t`, moved by `base`: those of a value, or one slot
for a reference. -/
def elementSlots (o : OffsetTable) (t : Nat) (base : Int32) : List OffsetSlot × OffsetTable :=
  match o.layout.element? t with
  | none => ([], o)
  | some element =>
    if o.layout.isValue element then o.objectSlots element base
    else
      let slot : Slot := ⟨t, none⟩
      ([⟨base, o.ruleset.flags slot, slot, base.toNatClampNeg⟩], o)

/-- How many tables have been made. -/
def computed (o : OffsetTable) : Nat :=
  o.tables.length

end OffsetTable

end RefRules
