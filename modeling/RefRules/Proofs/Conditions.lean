import RefRules.Proofs.Reading

/-!
# RefRules — tags by condition

A field of a value type can be given tags for when it is zero and tags for when it is not. The field
is read at its own size, and the number becomes a word of the heap, so only as many of its low bytes
count as a word has. Where a field is wider than a word, its high bytes do not: a field that is zero
but for these has the tags of zero.

Main results:

* `Heap.exists_readsAt_of_mem_pointers` — the place in memory that a pointer was read from, whatever
  the signs of offsets;
* `Heap.conditionalTags_of_mem_pointers` — which tags a field has because of its bytes.
-/

namespace RefRules

/-! ## Low bytes -/

/-- Below a power of 256 only the low bytes count. -/
theorem littleEndian_mod (bytes : List UInt8) (n : Nat) :
    littleEndian bytes % 256 ^ n = littleEndian (bytes.take n) := by
  induction bytes generalizing n with
  | nil => simp [littleEndian]
  | cons b bytes ih =>
    cases n with
    | zero => simp [littleEndian, Nat.mod_one]
    | succ n =>
      have hByte := b.toNat_lt
      show (b.toNat + 256 * littleEndian bytes) % 256 ^ (n + 1) =
        b.toNat + 256 * littleEndian (bytes.take n)
      have hLow : (b.toNat + 256 * littleEndian bytes) % 256 = b.toNat := by omega
      have hHigh : (b.toNat + 256 * littleEndian bytes) / 256 = littleEndian bytes := by omega
      rw [Nat.pow_succ', Nat.mod_mul, hLow, hHigh, ih]

/-- A number becomes the null word when the bytes that a word has room for are zero. -/
theorem Word.isNull_ofNat_littleEndian (size : WordSize) (bytes : List UInt8) :
    (Word.ofNat size (littleEndian bytes)).isNull = (bytes.take size.bytes).all (· == 0) := by
  rw [Bool.eq_iff_iff, List.all_eq_true, isNull, beq_iff_eq, value_ofNat, WordSize.limit_eq,
    littleEndian_mod, littleEndian_eq_zero_iff]
  simp only [beq_iff_eq]

/-- The first `size` bytes are zero, but not all bytes are. -/
def IsHighOnly (size : Nat) (bytes : List UInt8) : Prop :=
  (bytes.take size).all (· == 0) = true ∧ bytes.all (· == 0) = false

/-- Unless only high bytes are set, the low bytes tell whether all are zero. -/
theorem all_take_of_not_isHighOnly {size : Nat} {bytes : List UInt8} (h : ¬IsHighOnly size bytes) :
    (bytes.take size).all (· == 0) = bytes.all (· == 0) := by
  cases hAll : bytes.all (· == 0) with
  | true =>
    rw [List.all_eq_true] at hAll ⊢
    exact fun b hb => hAll b (List.mem_of_mem_take hb)
  | false => exact Bool.eq_false_iff.mpr fun hLow => h ⟨hLow, hAll⟩

namespace View

theorem readWidened_eq_ok_iff {v : View} {position width : Nat} {size : WordSize} {word : Word}
    (hNumber : isNumberWidth width = true) :
    v.readWidened position width size = .ok word ↔
      ∃ bytes, v.read position width = .ok bytes ∧ Word.ofNat size (littleEndian bytes) = word := by
  simp only [readWidened, hNumber, if_true, readNat, map_eq_ok_iff, exists_exists_and_eq_and]

end View

namespace Heap

variable {h : Heap}

/-! ## Places of pointers -/

/-- In the memory of an object of type `t`, a pointer was read at a place: at the offset of a slot of
the object, or at that of a slot of an element. What is negative or too large wraps. -/
inductive ReadsAt (h : Heap) (view : View) (t : Nat) : Pointer → Nat → Prop
  | object {slot : OffsetSlot} {value : Word} (hArray : h.layout.isArray t = false)
      (hSlot : slot ∈ (h.slots t).1) (hRead : h.readSlot view slot (wrap64 slot.value) = .ok value) :
      ReadsAt h view t (slot.withValue value) (wrap64 slot.value)
  | element {slot : OffsetSlot} {value : Word} {index place : Nat}
      (hArray : h.layout.isArray t = true) (hSlot : slot ∈ (h.slots t).1)
      (hPlace : place =
        placeIn (index * wrap64 (h.layout.elementSize t) + wrap64 h.layout.arrayHeader) slot)
      (hRead : h.readSlot view slot place = .ok value) :
      ReadsAt h view t { slot.withValue value with position := place } place

/-- Every pointer at an address was read from the memory there. -/
theorem exists_readsAt_of_mem_pointers {address : Word} {type : Int} {ps : List Pointer}
    (hRead : (h.pointers address type).1 = .ok ps) {p : Pointer} (hp : p ∈ ps) :
    ∃ t view place, h.layout.index? type = some t ∧ h.snapshot.viewAt? address = some view ∧
      h.ReadsAt view t p place := by
  obtain ⟨t, hIndex, ⟨-, rfl⟩ | ⟨view, reading, hView, hReading, rfl⟩⟩ := pointers_eq_ok hRead
  · simp at hp
  refine ⟨t, view, ?_⟩
  cases hArray : h.layout.isArray t with
  | false =>
    simp only [readView, hArray, Bool.false_eq_true, if_false, map_eq_ok_iff] at hReading
    obtain ⟨ps, hObject, rfl⟩ := hReading
    obtain ⟨slot, hSlot, value, hValue, rfl⟩ := mem_of_readObject hObject hp
    exact ⟨_, hIndex, hView, .object hArray hSlot hValue⟩
  | true =>
    simp only [readView, hArray, if_true, readArray] at hReading
    split at hReading
    · rw [Except.ok.injEq] at hReading
      simp [← hReading] at hp
    · simp only [bind_eq_ok_iff, pure_eq_ok_iff] at hReading
      obtain ⟨length, -, elements, hElements, rfl⟩ := hReading
      obtain ⟨index, slot, value, hComes, hValue, rfl⟩ :=
        mem_of_readElements (fun j hj => absurd hj (Nat.not_lt_zero j)) hElements hp
      exact ⟨_, hIndex, hView, .element hArray hComes.mem rfl hValue⟩

/-- A slot of an object carries the classification that the ruleset gives it. -/
theorem flags_of_mem_slots {t : Nat} (ht : t < h.layout.count) {slot : OffsetSlot}
    (hSlot : slot ∈ (h.slots t).1) : slot.flags = h.ruleset.flags slot.slot := by
  have hTable : ∀ u base, slot ∈ (slotsOf h.layout h.ruleset u).map (shiftSlot base) →
      slot.flags = h.ruleset.flags slot.slot := by
    intro u base hMem
    obtain ⟨inner, hInner, rfl⟩ := List.mem_map.mp hMem
    obtain ⟨around, v, f, offset, -, -, -, rfl⟩ := exists_holds_of_mem_slotsOf hInner
    rfl
  cases hArray : h.layout.isArray t with
  | false => exact hTable _ _ (slots_object ht hArray ▸ hSlot)
  | true =>
    cases hElement : h.layout.element? t with
    | none =>
      simp only [layout] at hElement hArray
      simp [slots, layout, hArray, OffsetTable.elementSlots, hElement] at hSlot
    | some element =>
      cases hValue : h.layout.isValue element with
      | true => exact hTable _ _ (slots_array hArray hElement hValue ▸ hSlot)
      | false =>
        -- an element that is a reference has one slot, which the table makes itself
        simp only [layout] at hElement hValue hArray
        simp only [slots, layout, hArray, if_true, OffsetTable.elementSlots, hElement, hValue,
          Bool.false_eq_true, if_false, List.mem_singleton] at hSlot
        rw [hSlot]
        rfl

/-- The place of a pointer is where its slot was read, at the slot's width. -/
theorem ReadsAt.slot {view : View} {t place : Nat} {p : Pointer} (h' : h.ReadsAt view t p place) :
    ∃ slot ∈ (h.slots t).1, slot.slot = p.slot ∧ slot.flags = p.flags ∧
      h.readSlot view slot place = .ok p.value := by
  cases h' with
  | object _ hSlot hRead => exact ⟨_, hSlot, rfl, rfl, hRead⟩
  | element _ hSlot _ hRead => exact ⟨_, hSlot, rfl, rfl, hRead⟩

/-! ## Conditions -/

/-- The tags that a slot has when its field is zero, or when it is not. -/
def tagsFor (h : Heap) (slot : Slot) (zero : Bool) : List String :=
  let marks := (h.ruleset.flags slot).marks
  if zero then (if marks.tagIfZero then h.ruleset.zeroTags slot else [])
  else (if marks.tagIfNonzero then h.ruleset.nonzeroTags slot else [])

/-- A rule with a condition is about the slot. -/
def HasCondition (h : Heap) (slot : Slot) : Prop :=
  (h.ruleset.flags slot).marks.tagIfZero = true ∨ (h.ruleset.flags slot).marks.tagIfNonzero = true

/-- A classified slot of a value field whose size is that of a number is read at this size. -/
theorem slotWidth_of_hasCondition (hBound : h.ruleset.IsBoundOn h.layout) {slot : OffsetSlot}
    {u f n : Nat} (hFlags : slot.flags = h.ruleset.flags slot.slot) (hSlot : slot.slot = ⟨u, some f⟩)
    (hCondition : h.HasCondition slot.slot) (hValue : h.layout.isValueField u f = true)
    (hSize : (h.layout.size (h.layout.fieldType u f)).toInt = n) (hNumber : View.isNumberWidth n = true) :
    h.slotWidth slot = n := by
  have hUntraced : slot.flags.marks.untraced = true := by
    rw [hFlags, hSlot]
    rw [hSlot] at hCondition
    cases hEntry : h.ruleset.lookup? ⟨u, some f⟩ with
    | none =>
      -- a slot that no rule is about has no condition
      simp [HasCondition, Ruleset.flags, hEntry, Flags.empty] at hCondition
    | some e =>
      have hMark := hBound.untraced hEntry
      simpa [Ruleset.flags, hEntry, hValue] using hMark
  have hWidth : (h.layout.size (h.layout.fieldType u f)).toNatClampNeg = n := by
    rw [← Int32.toNat_toInt, hSize, Int.toNat_natCast]
  have hNonneg : 0 ≤ h.layout.size (h.layout.fieldType u f) := by
    rw [Int32.le_iff_toInt_le, hSize]
    exact Int.natCast_nonneg n
  simp [slotWidth, hSlot, hUntraced, hWidth, hNonneg, hNumber]

/-- **Tags by condition.** A pointer that stands for a value field with a condition, of one, two, four
or eight bytes, was read from as many bytes of memory. It has the tags for zero or for nonzero as
those low bytes say that a word has room for. If the field fits a word, these are all of its bytes. If
it does not, the tags are still those that all bytes ask for, except where only high bytes are set:
there the field has the tags for zero. -/
theorem conditionalTags_of_mem_pointers (hBound : h.ruleset.IsBoundOn h.layout) {address : Word}
    {type : Int} {ps : List Pointer} (hRead : (h.pointers address type).1 = .ok ps) {p : Pointer}
    (hp : p ∈ ps) {u f n : Nat} (hSlot : p.slot = ⟨u, some f⟩)
    (hValue : h.layout.isValueField u f = true)
    (hSize : (h.layout.size (h.layout.fieldType u f)).toInt = n) (hNumber : View.isNumberWidth n = true)
    (hCondition : h.HasCondition p.slot) :
    ∃ t view place bytes, h.layout.index? type = some t ∧ h.snapshot.viewAt? address = some view ∧
      h.ReadsAt view t p place ∧ view.read place n = .ok bytes ∧
      h.conditionalTags p = h.tagsFor p.slot ((bytes.take h.wordSize.bytes).all (· == 0)) ∧
      (n ≤ h.wordSize.bytes → h.conditionalTags p = h.tagsFor p.slot (bytes.all (· == 0))) ∧
      (h.conditionalTags p = h.tagsFor p.slot (bytes.all (· == 0)) ↔
        (IsHighOnly h.wordSize.bytes bytes → h.tagsFor p.slot true = h.tagsFor p.slot false)) := by
  obtain ⟨t, view, place, hIndex, hView, hPlace⟩ := exists_readsAt_of_mem_pointers hRead hp
  obtain ⟨slot, hMem, hSame, hFlags, hWord⟩ := hPlace.slot
  have ht := (Layout.index?_eq_some_iff.mp hIndex).2
  have hRuled := flags_of_mem_slots ht hMem
  -- the slot is read at the size of its field
  have hWidth : h.slotWidth slot = n :=
    slotWidth_of_hasCondition hBound hRuled (hSame.trans hSlot) (hSame ▸ hCondition) hValue hSize
      hNumber
  rw [readSlot, hWidth, View.readWidened_eq_ok_iff hNumber] at hWord
  obtain ⟨bytes, hBytes, hNumberOf⟩ := hWord
  have hNull : p.value.isNull = (bytes.take h.wordSize.bytes).all (· == 0) := by
    rw [← hNumberOf, Word.isNull_ofNat_littleEndian]
  have hTags : h.conditionalTags p =
      h.tagsFor p.slot ((bytes.take h.wordSize.bytes).all (· == 0)) := by
    rw [conditionalTags, tagsFor, ← hFlags, hRuled, hSame, hNull]
  refine ⟨t, view, place, bytes, hIndex, hView, hPlace, hBytes, hTags, fun hFits => ?_, ?_⟩
  · have hLength := View.length_of_read hBytes
    rw [hTags, List.take_of_length_le (by omega)]
  · rw [hTags]
    by_cases hHigh : IsHighOnly h.wordSize.bytes bytes
    · rw [hHigh.1, hHigh.2]
      exact ⟨fun hSame _ => hSame, fun hSame => hSame hHigh⟩
    · -- the low bytes and all bytes agree
      simp only [all_take_of_not_isHighOnly hHigh, hHigh, false_implies]

/-! ## A heap with conditions -/

/-- Items with a flag of one byte and a serial number of eight, in a process with words of four. -/
def itemLayout : Layout where
  wordSize := .four
  objectHeader := 4
  arrayHeader := 8
  types := [
    ⟨"", "Byte", true, false, none, 1, [], none⟩,
    ⟨"", "Long", true, false, none, 8, [], none⟩,
    ⟨"", "Item", false, false, none, 13,
      [⟨"serial", 1, 0, false, none⟩, ⟨"flag", 0, 8, false, none⟩], some 1⟩]
  sound := by decide

/-- An item at 16 whose serial number is 2 ^ 32 and whose flag is zero. -/
def itemMemory : Store :=
  #[1, 0, 0, 0, 0, 0, 0, 0, 1, 0, 0, 0, 0]

/-- A rule with a condition on every field of an item. -/
def itemRule (tag : String) (zero : Bool) : Rule where
  spec := ⟨"Item", none, .exact "Item"⟩
  kind := .tagIf [tag] zero
  path := ⟨[.field "*"]⟩
  location := ⟨"item.rcl", 1⟩
  group := anonymousGroup

def itemHeap : Heap where
  snapshot := ⟨.four, #[⟨.ofNat .four 16, .whole itemMemory, false⟩]⟩
  format := FixedHeader.format ⟨.four, 0, 4, itemLayout.typeWords⟩
  offsets := .fresh itemLayout
    (Ruleset.bind itemLayout [itemRule "none" true, itemRule "some" false] {}).1

/-- A pointer of the item: one of its fields, with both conditions, that is read as null. -/
def itemPointer (field position : Nat) : Pointer :=
  ⟨.ofNat .four 0, .ofMarks { untraced := true, tagIfZero := true, tagIfNonzero := true },
    ⟨2, some field⟩, position⟩

/-- Both fields are read as null. -/
theorem pointers_of_item :
    (itemHeap.pointers (.ofNat .four 16) 2).1 = .ok [itemPointer 0 4, itemPointer 1 12] := by
  cbv

/-- The flag has the tags that its byte asks for. -/
theorem conditionalTags_flag_of_item :
    ∃ t view place bytes, itemHeap.layout.index? 2 = some t ∧
      itemHeap.snapshot.viewAt? (.ofNat .four 16) = some view ∧
      itemHeap.ReadsAt view t (itemPointer 1 12) place ∧ view.read place 1 = .ok bytes ∧
      itemHeap.conditionalTags (itemPointer 1 12) =
        itemHeap.tagsFor ⟨2, some 1⟩ (bytes.all (· == 0)) := by
  obtain ⟨t, view, place, bytes, hIndex, hView, hPlace, hBytes, -, hTags, -⟩ :=
    conditionalTags_of_mem_pointers (h := itemHeap) (n := 1) ⟨_, {}, rfl⟩ pointers_of_item
      (p := itemPointer 1 12) (List.mem_cons_of_mem _ (List.mem_singleton_self _)) rfl (by decide)
      (by decide) (by decide) (.inl (by cbv))
  exact ⟨t, view, place, bytes, hIndex, hView, hPlace, hBytes, hTags (by decide)⟩

/-- The serial number is not zero, but for a word only its low bytes count: it has the tags of zero. -/
theorem conditionalTags_serial_of_item :
    (itemHeap.pointers (.ofNat .four 16) 2).1 = .ok [itemPointer 0 4, itemPointer 1 12] ∧
      (itemHeap.snapshot.viewAt? (.ofNat .four 16)).map (·.read 4 8) =
        some (.ok [0, 0, 0, 0, 1, 0, 0, 0]) ∧
      itemHeap.conditionalTags (itemPointer 0 4) = ["none"] ∧
      itemHeap.tagsFor ⟨2, some 0⟩ false = ["some"] :=
  ⟨pointers_of_item, by cbv, by cbv, by cbv⟩

end Heap

end RefRules
