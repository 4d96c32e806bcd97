import RefRules.OffsetTable
import RefRules.Proofs.BaseChain
import RefRules.Proofs.Numbers

/-!
# RefRules — structs inside of instances

An instance holds structs: itself, the part of each base type, and the values that are embedded in
one of them, each type once along the way. A slot of an offset table is a field of such a struct, at
the offset of the struct and the field's own.

Main results:

* `exists_holds_of_mem_slotsOf` — every slot of a type belongs to a struct that its instances hold;
* `Layout.SumsFit.value_nonneg`, `Layout.SumsFit.value_le` — where no sum wraps, slots lie behind the
  start of their instance, and have room to be moved;
* `fieldSlot_mem_slotsOf` — a field that is found by its name has a slot, in the instance itself
  or in the part of a base type.
-/

namespace RefRules

namespace Layout

variable {L : Layout}

/-! ## Structs -/

/-- An instance of type `t` holds a struct of a type at an offset, inside of structs of the types
`around`. The offset is the sum of what is declared on the way. -/
inductive Holds (L : Layout) (t : Nat) : List Nat → Nat → Int → Prop
  | self : Holds L t [] t 0
  | base {around : List Nat} {u b : Nat} {offset : Int} (h : Holds L t around u offset)
      (hBase : L.base? u = some b) (hNew : b ∉ u :: around) : Holds L t (u :: around) b offset
  | value {around : List Nat} {u f : Nat} {offset : Int} (h : Holds L t around u offset)
      (hField : f < (L.fields u).length) (hStatic : L.isStatic u f = false)
      (hValue : L.isValueField u f = true) (hNew : L.fieldType u f ∉ u :: around) :
      Holds L t (u :: around) (L.fieldType u f) (offset + L.declaredOffset u f)

theorem Holds.nonneg (hNonneg : L.IsNonneg) {t u : Nat} {around : List Nat} {offset : Int}
    (h : L.Holds t around u offset) : 0 ≤ offset := by
  induction h with
  | self => exact Int.le_refl 0
  | base _ _ _ ih => exact ih
  | @value _ u f _ _ _ _ _ _ ih =>
    have := hNonneg.declaredOffset u f
    omega

/-- No field of an instance of type `t` lies past the numbers of 32 bits when the instance is laid out
behind `base`. -/
def SumsFit (L : Layout) (t : Nat) (base : Int) : Prop :=
  ∀ around u offset f, L.Holds t around u offset → f < (L.fields u).length →
    L.isStatic u f = false → offset + L.declaredOffset u f + base ≤ 2147483647

theorem SumsFit.mono {t : Nat} {base base' : Int} (h : L.SumsFit t base) (hLess : base' ≤ base) :
    L.SumsFit t base' := by
  intro around u offset f hHolds hField hStatic
  have hSum := h around u offset f hHolds hField hStatic
  omega

/-- No sum wraps where each type has room for what lies in it: for the part of its base type, for all
of a value in a field, and for the field itself. -/
theorem sumsFit_of_room (room : Nat → Int)
    (hBase : ∀ u < L.count, ∀ b ∈ L.base? u, room b ≤ room u)
    (hValue : ∀ u < L.count, ∀ f < (L.fields u).length, L.isStatic u f = false →
      L.isValueField u f = true → L.declaredOffset u f + room (L.fieldType u f) ≤ room u)
    (hField : ∀ u < L.count, ∀ f < (L.fields u).length, L.declaredOffset u f ≤ room u)
    {t : Nat} {base : Int}
    (hRoom : room t + base ≤ 2147483647) : L.SumsFit t base := by
  have hInside : ∀ {around u offset}, L.Holds t around u offset → offset + room u ≤ room t := by
    intro around u offset hHolds
    induction hHolds with
    | self => omega
    | @base _ u _ _ _ hOf _ ih =>
      obtain ⟨info, hInfo, -⟩ := Option.bind_eq_some_iff.mp hOf
      have := hBase u (List.getElem?_eq_some_iff.mp hInfo).1 _ hOf
      omega
    | @value _ u f _ _ hIn hStatic hIsValue _ ih =>
      have := hValue u (lt_count_of_lt_fields hIn) f hIn hStatic hIsValue
      omega
  intro around u offset f hHolds hIn _
  have := hInside hHolds
  have := hField u (lt_count_of_lt_fields hIn) f hIn
  omega

end Layout

/-! ## Slots -/

section

variable {L : Layout} {r : Ruleset}

/-- Collecting goes through the structs: every slot is a field of one, at the wrapped sum of what is
declared. -/
theorem exists_holds_of_mem_collectSlots {t : Nat} {fuel : Nat} {around : List Nat} {u : Nat}
    {offset : Int} (hHolds : L.Holds t around u offset) {slot : OffsetSlot}
    (h : slot ∈ collectSlots L r fuel around u (.ofInt offset)) :
    ∃ around v f offset, L.Holds t around v offset ∧ f < (L.fields v).length ∧
      L.isStatic v f = false ∧ slot = fieldSlot r v f (.ofInt (offset + L.declaredOffset v f)) := by
  induction fuel generalizing around u offset with
  | zero => simp [collectSlots] at h
  | succ fuel ih =>
    rw [collectSlots] at h
    rcases List.mem_append.mp h with h | h
    · -- the part of the base type
      cases hBase : L.base? u with
      | none => simp [hBase] at h
      | some b =>
        simp only [hBase, List.contains_iff_mem] at h
        split at h
        · simp at h
        · next hNew => exact ih (hHolds.base hBase hNew) h
    · obtain ⟨f, hField, h⟩ := List.mem_flatMap.mp h
      rw [List.mem_range] at hField
      cases hStatic : L.isStatic u f with
      | true => simp [hStatic] at h
      | false =>
        have hOwn : ∀ slot ∈ [fieldSlot r u f (.ofInt (offset + L.declaredOffset u f))],
            ∃ around v f offset, L.Holds t around v offset ∧ f < (L.fields v).length ∧
              L.isStatic v f = false ∧
              slot = fieldSlot r v f (.ofInt (offset + L.declaredOffset v f)) := fun _ hMem =>
          ⟨around, u, f, offset, hHolds, hField, hStatic, List.mem_singleton.mp hMem⟩
        simp only [hStatic, Bool.false_eq_true, if_false, Layout.fieldOffset_eq, ← Int32.ofInt_add,
          List.contains_iff_mem] at h
        split at h
        · next hValue =>
          rcases List.mem_append.mp h with h | h
          · split at h
            · simp at h
            · exact hOwn _ h
          · split at h
            · simp at h
            · -- the slots of an embedded value
              next hNew => exact ih (hHolds.value hField hStatic hValue hNew) h
        · exact hOwn _ h

/-- Every slot of a type is a field of a struct that its instances hold. -/
theorem exists_holds_of_mem_slotsOf {t : Nat} {slot : OffsetSlot} (h : slot ∈ slotsOf L r t) :
    ∃ around u f offset, L.Holds t around u offset ∧ f < (L.fields u).length ∧
      L.isStatic u f = false ∧ slot = fieldSlot r u f (.ofInt (offset + L.declaredOffset u f)) :=
  exists_holds_of_mem_collectSlots .self h

/-- Where no sum wraps, a field lies behind the start of the instance as far as is declared. -/
theorem Layout.SumsFit.toInt_eq {t u f : Nat} {around : List Nat} {offset : Int}
    (hFits : L.SumsFit t 0) (hNonneg : L.IsNonneg) (hHolds : L.Holds t around u offset)
    (hField : f < (L.fields u).length) (hStatic : L.isStatic u f = false) :
    (L.fieldOffset u f true).toInt = L.declaredOffset u f ∧
      (Int32.ofInt (offset + L.declaredOffset u f)).toInt = offset + L.declaredOffset u f := by
  have hSum := hFits around u offset f hHolds hField hStatic
  have hOffset := hHolds.nonneg hNonneg
  have hDeclared := hNonneg.declaredOffset u f
  rw [Layout.fieldOffset_eq, Int32.toInt_ofInt_of_le (by omega) (by omega),
    Int32.toInt_ofInt_of_le (by omega) (by omega)]
  exact ⟨rfl, rfl⟩

section

variable {t : Nat} {base : Int} (hNonneg : L.IsNonneg) {slot : OffsetSlot} (h : slot ∈ slotsOf L r t)

include hNonneg h

/-- Where no sum wraps, the slots of an instance lie behind its start. -/
theorem Layout.SumsFit.value_nonneg (hFits : L.SumsFit t 0) : 0 ≤ slot.value.toInt := by
  obtain ⟨around, u, f, offset, hHolds, hField, hStatic, rfl⟩ := exists_holds_of_mem_slotsOf h
  have hOffset := hHolds.nonneg hNonneg
  have hDeclared := hNonneg.declaredOffset u f
  show 0 ≤ (Int32.ofInt (offset + L.declaredOffset u f)).toInt
  rw [(hFits.toInt_eq hNonneg hHolds hField hStatic).2]
  omega

/-- Where no sum from `base` on wraps, the slots of an instance can be moved by as much. -/
theorem Layout.SumsFit.value_le (hFits : L.SumsFit t base) (hBase : 0 ≤ base) :
    slot.value.toInt + base ≤ 2147483647 := by
  obtain ⟨around, u, f, offset, hHolds, hField, hStatic, rfl⟩ := exists_holds_of_mem_slotsOf h
  have hSum := hFits around u offset f hHolds hField hStatic
  show (Int32.ofInt (offset + L.declaredOffset u f)).toInt + base ≤ 2147483647
  rwa [((hFits.mono hBase).toInt_eq hNonneg hHolds hField hStatic).2]

end

/-- A reference field of a type has its slot at the offset of the struct. -/
theorem fieldSlot_mem_collectSlots {fuel : Nat} {visiting : List Nat} {u f : Nat} {base : Int32}
    (hField : f < (L.fields u).length) (hStatic : L.isStatic u f = false)
    (hRef : L.isValueField u f = false) :
    fieldSlot r u f (base + L.fieldOffset u f true) ∈ collectSlots L r (fuel + 1) visiting u base := by
  rw [collectSlots]
  refine List.mem_append_right _ (List.mem_flatMap.mpr ⟨f, List.mem_range.mpr hField, ?_⟩)
  have hValue : L.isValue (L.fieldType u f) = false := hRef
  simp only [hStatic, hValue, Bool.false_eq_true, if_false, List.mem_singleton]

/-- The search along the base types and the collection of slots go the same way. -/
theorem fieldSlot_mem_of_findFrom {name : String} {fuel : Nat} {visiting : List Nat} {u d f : Nat}
    {base : Int32} (hFound : L.findFrom name fuel u = some (d, f))
    (hVisiting : ∀ v ∈ visiting, L.depth u < L.depth v) (hStatic : L.isStatic d f = false)
    (hRef : L.isValueField d f = false) :
    fieldSlot r d f (base + L.fieldOffset d f true) ∈ collectSlots L r fuel visiting u base := by
  -- both spend their fuel on one type after the other
  induction fuel generalizing visiting u with
  | zero => cases hFound
  | succ fuel ih =>
    cases hDeclared : L.findDeclared u name with
    | some g =>
      simp only [Layout.findFrom, hDeclared, Option.some.injEq, Prod.mk.injEq] at hFound
      obtain ⟨rfl, rfl⟩ := hFound
      have hField := (List.findIdx?_eq_some_iff_getElem.mp hDeclared).1
      exact fieldSlot_mem_collectSlots hField hStatic hRef
    | none =>
      simp only [Layout.findFrom, hDeclared] at hFound
      obtain ⟨b, hBase, hFound⟩ := Option.bind_eq_some_iff.mp hFound
      have hDepth := Layout.depth_lt_of_base? hBase
      -- the base type is less deep than all types on the way, so it is none of them
      have hFresh : (u :: visiting).contains b = false := by
        rw [Bool.eq_false_iff, Ne, List.contains_iff_mem]
        intro hMem
        rcases List.mem_cons.mp hMem with rfl | hMem
        · omega
        · have := hVisiting b hMem
          omega
      have hBelow : ∀ v ∈ u :: visiting, L.depth b < L.depth v := by
        intro v hv
        rcases List.mem_cons.mp hv with rfl | hv
        · exact hDepth
        · have := hVisiting v hv
          omega
      have hMem := ih hFound hBelow
      rw [collectSlots]
      refine List.mem_append_left _ ?_
      simp only [hBase, hFresh, Bool.false_eq_true, if_false]
      exact hMem

/-- A reference field that is found by its name has its slot, at its offset. -/
theorem fieldSlot_mem_slotsOf {name : String} {t d f : Nat}
    (hFound : L.findField t name = some (d, f)) (hStatic : L.isStatic d f = false)
    (hRef : L.isValueField d f = false) :
    fieldSlot r d f (L.fieldOffset d f true) ∈ slotsOf L r t := by
  have hMem : fieldSlot r d f (0 + L.fieldOffset d f true) ∈ slotsOf L r t :=
    fieldSlot_mem_of_findFrom hFound (by simp) hStatic hRef
  rwa [Int32.zero_add] at hMem

end

end RefRules
