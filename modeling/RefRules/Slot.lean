import RefRules.Flags

/-!
# RefRules — pointer slots

A slot is a place of a type that holds a pointer or a classified value: a declared field, or the
elements of an array.
-/

namespace RefRules

/-- A field of a type; without a field, the elements of an array. -/
structure Slot where
  type : Nat
  field : Option Nat
  deriving DecidableEq

/-- A slot at a place, with its classification. The value is an offset in a table of slots, and a
word where the slot was read from the heap; the position counts from the start of the object or
array. -/
structure Placed (α : Type) where
  value : α
  flags : Flags
  slot : Slot
  position : Nat

/-- The same slot with another value. -/
def Placed.withValue {α β : Type} (p : Placed α) (value : β) : Placed β :=
  { p with value := value }

/-- The slot is that of the elements of an array. -/
def Placed.isElement {α : Type} (p : Placed α) : Bool :=
  p.slot.field.isNone

end RefRules
