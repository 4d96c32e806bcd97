import RefRules.Heap.Format
import RefRules.OffsetTable
import RefRules.Snapshot

/-!
# RefRules — pointers of heap objects

A `Heap` reads the slots of objects out of a snapshot: a layout says where they lie, a ruleset how
they are classified. An array yields the slots of its elements as far as its memory is there.
Main definitions:

* `Heap.readObject`, `Heap.readElements` — the slots in a view of an object or of an array;
* `Heap.pointers` — the slots of the object at an address.
-/

namespace RefRules

structure Heap where
  snapshot : Snapshot
  format : ObjectFormat
  offsets : OffsetTable

/-- A slot with the word it holds. -/
abbrev Pointer := Placed Word

namespace Heap

def layout (h : Heap) : Layout :=
  h.offsets.layout

def ruleset (h : Heap) : Ruleset :=
  h.offsets.ruleset

def wordSize (h : Heap) : WordSize :=
  h.snapshot.wordSize

/-! ## Slots -/

/-- How many bytes a slot is read at: an untraced field of the size of a number at that size, all
else as a pointer. -/
def slotWidth (h : Heap) (slot : OffsetSlot) : Nat :=
  match slot.slot.field with
  | some f =>
    let size := h.layout.size (h.layout.fieldType slot.slot.type f)
    if slot.flags.marks.untraced && 0 ≤ size && View.isNumberWidth size.toNatClampNeg then
      size.toNatClampNeg
    else h.wordSize.bytes
  | none => h.wordSize.bytes

/-- Reads a slot at a position. -/
def readSlot (h : Heap) (view : View) (slot : OffsetSlot) (position : Nat) :
    Except MemoryError Word :=
  view.readWidened position (h.slotWidth slot) h.wordSize

/-! ## Objects -/

/-- Reads slots at their offsets. -/
def readObject (h : Heap) (view : View) : List OffsetSlot → Except MemoryError (List Pointer)
  | [] => .ok []
  | slot :: slots => do
    let value ← h.readSlot view slot (wrap64 slot.value)
    let rest ← h.readObject view slots
    return slot.withValue value :: rest

/-! ## Arrays -/

/-- The slots of an array that were read, and the element at which its memory ends. -/
structure Elements where
  pointers : List Pointer
  cut : Option Nat

/-- Puts pointers in front. -/
def Elements.prepend (pointers : List Pointer) (e : Elements) : Elements :=
  { e with pointers := pointers ++ e.pointers }

/-- Where a slot of the element at `start` lies, a sum of 64 bits that wraps. -/
def placeIn (start : Nat) (slot : OffsetSlot) : Nat :=
  (start + wrap64 slot.value) % Numeral.limit64

/-- Reads the slots of the element at `start` as far as they lie in the view, and says whether all
of them do. -/
def readElement (h : Heap) (view : View) (start : Nat) :
    List OffsetSlot → Except MemoryError (List Pointer × Bool)
  | [] => .ok ([], true)
  | slot :: slots => do
    let position := placeIn start slot
    if position + h.slotWidth slot ≤ view.size then
      let value ← h.readSlot view slot position
      let (rest, complete) ← h.readElement view start slots
      return ({ slot.withValue value with position := position } :: rest, complete)
    else return ([], false)

/-- Reads `count` elements from number `index` on, until the memory ends. -/
def readElements (h : Heap) (view : View) (slots : List OffsetSlot) (first stride : Nat) :
    Nat → Nat → Except MemoryError Elements
  | 0, _ => .ok ⟨[], none⟩
  | count + 1, index =>
    let start := index * stride + first
    if Numeral.limit64 ≤ start then .ok ⟨[], none⟩
    else do
      let (pointers, complete) ← h.readElement view start slots
      if complete then
        return (← h.readElements view slots first stride count (index + 1)).prepend pointers
      else return ⟨pointers, some index⟩

/-- What is read at an address: the pointers, and for an array that is cut short the element at
which it ends and its length. -/
structure Reading where
  pointers : List Pointer
  cut : Option (Nat × Nat) := none

/-- Reads the slots of the array of type `t` in a view. -/
def readArray (h : Heap) (view : View) (t : Nat) (slots : List OffsetSlot) :
    Except MemoryError Reading :=
  if slots.isEmpty then .ok ⟨[], none⟩
  else do
    let length ← h.format.arrayLength view t
    let first := wrap64 h.layout.arrayHeader
    let stride := wrap64 (h.layout.elementSize t)
    let elements ← h.readElements view slots first stride length 0
    return ⟨elements.pointers, elements.cut.map fun index => (index, length)⟩

/-! ## Addresses -/

/-- The slots of an instance as they lie behind its address: a value stands behind an object
header. -/
def slots (h : Heap) (t : Nat) : List OffsetSlot × OffsetTable :=
  if h.layout.isArray t then h.offsets.elementSlots t 0
  else h.offsets.objectSlots t (if h.layout.isValue t then h.layout.objectHeader else 0)

/-- Reads the slots of type `t` in a view. -/
def readView (h : Heap) (view : View) (t : Nat) (slots : List OffsetSlot) :
    Except MemoryError Reading :=
  if h.layout.isArray t then h.readArray view t slots
  else (h.readObject view slots).map fun pointers => ⟨pointers, none⟩

/-- Reads the object of a type at an address, with the heap's tables afterwards; an address
outside of the snapshot has nothing. -/
def read (h : Heap) (address : Word) (type : Int) : Except HeapError Reading × Heap :=
  match h.layout.index? type with
  | none => (.error (.invalidType type), h)
  | some t =>
    match h.snapshot.viewAt? address with
    | none => (.ok ⟨[], none⟩, h)
    | some view =>
      let (slots, offsets) := h.slots t
      ((h.readView view t slots).mapError .memory, { h with offsets := offsets })

/-- The pointers of the object of a type at an address. -/
def pointers (h : Heap) (address : Word) (type : Int) : Except HeapError (List Pointer) × Heap :=
  let (reading, h) := h.read address type
  (reading.map (·.pointers), h)

/-- The tags that a slot has because of the value it holds. -/
def conditionalTags (h : Heap) (p : Pointer) : List String :=
  if p.value.isNull then
    if p.flags.marks.tagIfZero then h.ruleset.zeroTags p.slot else []
  else
    if p.flags.marks.tagIfNonzero then h.ruleset.nonzeroTags p.slot else []

end Heap

end RefRules
