import Mathlib
import RefRules.Layout.Basic

/-!
# RefRules — the numbers of a layout

The headers and offsets of a layout are numbers of 32 bits, and so are their sums: one that does not
fit wraps. It makes no difference whether a sum is wrapped at its end or at each step, so an offset is
the exact sum of what is declared, wrapped.

Main result:

* `Layout.fieldOffset_eq` — the offset of a field is the wrapped sum of what is declared.
-/

namespace RefRules

namespace Layout

/-- No header and no offset of a field is negative. -/
structure IsNonneg (L : Layout) : Prop where
  objectHeader : 0 ≤ L.objectHeader.toInt
  arrayHeader : 0 ≤ L.arrayHeader.toInt
  offset : ∀ t ∈ L.types, ∀ f ∈ t.fields, 0 ≤ f.offset.toInt

/-- How far behind the start of its struct a field is declared to lie, with the header of a reference
type. -/
def declaredOffset (L : Layout) (t f : Nat) : Int :=
  (L.field? t f).elim 0 (·.offset.toInt) + if L.isValue t then 0 else L.objectHeader.toInt

variable {L : Layout}

/-- The offset of a field is the wrapped sum of what is declared. -/
theorem fieldOffset_eq (L : Layout) (t f : Nat) :
    L.fieldOffset t f true = .ofInt (L.declaredOffset t f) := by
  have hOffset : (L.field? t f).elim 0 (·.offset) =
      Int32.ofInt ((L.field? t f).elim 0 (·.offset.toInt)) := by
    cases L.field? t f with
    | none => rfl
    | some field => exact (Int32.ofInt_toInt field.offset).symm
  rw [fieldOffset, declaredOffset, Int32.ofInt_add, ← hOffset]
  cases L.isValue t with
  | true => exact (Int32.add_zero _).symm
  | false => exact congrArg (_ + ·) (Int32.ofInt_toInt L.objectHeader).symm

theorem IsNonneg.declaredOffset (h : L.IsNonneg) (t f : Nat) : 0 ≤ L.declaredOffset t f := by
  have hHeader := h.objectHeader
  have hOffset : 0 ≤ (L.field? t f).elim 0 (·.offset.toInt) := by
    cases hField : L.field? t f with
    | none => exact Int.le_refl 0
    | some field =>
      have hMem : field ∈ L.fields t := List.mem_of_getElem? hField
      cases hType : L.types[t]? with
      | none => simp [fields, hType] at hMem
      | some type =>
        rw [fields, hType] at hMem
        exact h.offset type (List.mem_of_getElem? hType) field hMem
  unfold Layout.declaredOffset
  split <;> omega

end Layout

end RefRules
