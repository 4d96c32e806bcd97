import RefRules.Proofs.Anchors

/-!
# RefRules — hops by name and own pointers

A hop by name reads a field of the object that a walk has come to. The pointers of that object stand
for the same field, and where they lie is worked out on another way. The two agree on objects of
reference types. They do not on boxed values, whose pointers lie behind the object header while the
hop counts from the start of the object, nor on arrays, whose pointers stand for elements only.

Main result:

* `Heap.readsOwn_iff` — the types on which hops by name read what the pointers of the object hold.
-/

namespace RefRules

/-! ## Own pointers -/

/-- The pointer stands for field `f` of type `d` in an object of type `t` itself, rather than in a
value that is embedded in it. -/
structure Layout.IsOwn (L : Layout) (t d f : Nat) (p : Pointer) : Prop where
  slot_eq : p.slot = ⟨d, some f⟩
  position_eq : p.position = (L.fieldOffset d f true + L.boxing t).toNatClampNeg

namespace Heap

variable {h : Heap}

/-- Where a walk has come to an object of type `t` that its pointers can be read of, the hop to field
`f` of type `d` by its name reads the word of the object's own pointer. -/
def ReadsOwn (h : Heap) (t d f : Nat) (name : String) : Prop :=
  ∀ word declared c ps, word.isNull = false → h.follow? word declared = some c → c.type = t →
    (h.pointers word t).1 = .ok ps →
    ∃ p ∈ ps, h.layout.IsOwn t d f p ∧
      h.hop c (.named (.field name)) = [.pointer p.value (h.layout.fieldType d f)]

/-- An object that is no array has an own pointer for each reference field that it has by name. -/
theorem exists_own_pointer (hBound : h.ruleset.IsBoundOn h.layout) {t d f : Nat} {name : String}
    (hArray : h.layout.isArray t = false) (hFound : h.layout.findField t name = some (d, f))
    (hStatic : h.layout.isStatic d f = false) (hRef : h.layout.isValueField d f = false)
    {word : Word} {view : View} (hView : h.snapshot.viewAt? word = some view) {ps : List Pointer}
    (hRead : (h.pointers word t).1 = .ok ps) :
    ∃ p ∈ ps, h.layout.IsOwn t d f p ∧
      view.readWord (wrap64 (h.layout.fieldOffset d f true + h.layout.boxing t)) h.wordSize =
        .ok p.value := by
  obtain ⟨u, hIndex, ⟨hNone, -⟩ | ⟨view', reading, hView', hReading, rfl⟩⟩ := pointers_eq_ok hRead
  · simp [hNone] at hView
  obtain rfl : view' = view := Option.some.inj (hView'.symm.trans hView)
  obtain ⟨hSame, hu⟩ := Layout.index?_eq_some_iff.mp hIndex
  obtain rfl : t = u := Int.natCast_inj.mp hSame
  simp only [readView, hArray, Bool.false_eq_true, if_false, map_eq_ok_iff] at hReading
  obtain ⟨ps, hObject, rfl⟩ := hReading
  -- the table of the type has the field at its own offset, the object has it behind the boxing
  have hSlot := fieldSlot_mem_slotsOf (r := h.ruleset) hFound hStatic hRef
  have hMem := List.mem_map_of_mem (f := shiftSlot (h.layout.boxing t)) hSlot
  rw [← slots_object hu hArray] at hMem
  obtain ⟨value, hValue, hp⟩ := exists_mem_of_readObject hObject hMem
  refine ⟨_, hp, ⟨rfl, rfl⟩, ?_⟩
  rw [readSlot, slotWidth_shiftSlot, slotWidth_of_reference hBound hRef, View.readWidened_bytes]
    at hValue
  exact hValue

/-- Where no header stands before the object, hops by name read own pointers. -/
theorem readsOwn_of_boxing (hBound : h.ruleset.IsBoundOn h.layout) {t d f : Nat} {name : String}
    (hArray : h.layout.isArray t = false) (hBoxing : h.layout.boxing t = 0)
    (hFound : h.layout.findField t name = some (d, f))
    (hStatic : h.layout.isStatic d f = false) (hRef : h.layout.isValueField d f = false) :
    h.ReadsOwn t d f name := by
  intro word declared c ps _ hFollow hType hRead
  obtain ⟨view, hView, rfl⟩ := Option.map_eq_some_iff.mp hFollow
  obtain ⟨p, hp, hOwn, hWord⟩ := exists_own_pointer hBound hArray hFound hStatic hRef hView hRead
  refine ⟨p, hp, hOwn, ?_⟩
  rw [hBoxing, Int32.add_zero] at hWord
  dsimp only at hType
  simp only [hop, hType, hFound]
  exact fieldTargets_of_readWord hStatic hRef hWord

end Heap

/-! ## A heap of one object -/

/-- Bytes of zero, but for one. -/
def Store.marked (size k : Nat) : Store :=
  Array.ofFn (n := size) fun i => if i.val = k then 1 else 0

theorem Store.getElem?_marked {size k i : Nat} (hi : i < size) :
    (Store.marked size k)[i]? = some (if i = k then 1 else 0) := by
  rw [Store.marked, Array.getElem?_ofFn, dif_pos hi]

/-- A word of a store is null exactly when each of its bytes is zero. -/
theorem View.isNull_iff_of_readWord {store : Store} {position : Nat} {size : WordSize} {word : Word}
    (h : (View.whole store).readWord position size = .ok word) :
    word.isNull = true ↔ ∀ i < size.bytes, store[position + i]? = some 0 := by
  obtain ⟨w, hWindow, hFits, rfl⟩ := View.readWord_eq_ok_iff.mp h
  cases hWindow
  dsimp only at hFits ⊢
  rw [Nat.zero_add] at *
  have hLength : (store.extract position (position + size.bytes)).toList.length = size.bytes := by
    simp
    omega
  have hLimit : 256 ^ size.bytes = size.limit := by cases size <;> rfl
  have hValue := littleEndian_lt (store.extract position (position + size.bytes)).toList
  rw [hLength, hLimit] at hValue
  rw [Word.isNull, beq_iff_eq, Word.value_ofNat_of_lt hValue, littleEndian_eq_zero_iff]
  constructor
  · intro hZero i hi
    have hByte := hZero store[position + i] (Array.mem_toList_iff.mpr
      (Array.mem_extract_iff_getElem.mpr ⟨i, by omega, rfl⟩))
    rw [Array.getElem?_eq_getElem (by omega), hByte]
  · intro hZero b hb
    obtain ⟨i, hi, rfl⟩ := Array.mem_extract_iff_getElem.mp (Array.mem_toList_iff.mp hb)
    have hByte := hZero i (by omega)
    rw [Array.getElem?_eq_getElem (by omega)] at hByte
    exact Option.some.inj hByte

/-- Exactly the words over the marked byte are not null. -/
theorem isNull_of_readWord_marked {size k position : Nat} {word : Word}
    (h : (View.whole (Store.marked size k)).readWord position .eight = .ok word) :
    word.isNull = true ↔ ¬(position ≤ k ∧ k < position + 8) := by
  obtain ⟨w, hWindow, hFits, -⟩ := View.readWord_eq_ok_iff.mp h
  cases hWindow
  have hEnd : position + 8 ≤ size := by simpa [Store.marked, WordSize.bytes] using hFits
  rw [View.isNull_iff_of_readWord h]
  constructor
  · intro hZero hOver
    have hOffset : position + (k - position) = k := by omega
    have hByte := hZero (k - position) (by show k - position < 8; omega)
    rw [hOffset, Store.getElem?_marked (by omega), if_pos rfl] at hByte
    cases hByte
  · intro hOut i hi
    have hi : i < 8 := hi
    rw [Store.getElem?_marked (by omega), if_neg (by omega)]

namespace Heap

/-- A heap with one object, of type `t`, at address one, and no rules. -/
def single (L : Layout) (t : Nat) (store : Store) : Heap where
  snapshot := ⟨.eight, #[⟨.ofNat .eight 1, .whole store, false⟩]⟩
  format := ⟨fun _ => some t, fun _ _ => .ok 0⟩
  offsets := .fresh L (Ruleset.bind L [] {}).1

theorem single_isBoundOn (L : Layout) (t : Nat) (store : Store) :
    (single L t store).ruleset.IsBoundOn (single L t store).layout :=
  ⟨[], {}, rfl⟩

theorem viewAt?_single {L : Layout} {t : Nat} {store : Store} (hStore : 0 < store.size) :
    (single L t store).snapshot.viewAt? (.ofNat .eight 1) = some (.whole store) := by
  have hContains : (⟨.ofNat .eight 1, .whole store, false⟩ : Segment).contains (.ofNat .eight 1) = true := by
    simpa [Segment.contains, Segment.size, View.whole, View.size] using hStore
  have hLocate : (single L t store).snapshot.segmentAt? (.ofNat .eight 1) =
      some ⟨.ofNat .eight 1, .whole store, false⟩ := by
    simp [Snapshot.segmentAt?, Segment.locate, single, Segment.bisect, Word.lt_iff, hContains]
  simp [Snapshot.viewAt?, hLocate, Word.offsetFrom?, View.tail, View.range, View.whole, View.size,
    Except.toOption]

theorem follow?_single {L : Layout} {t : Nat} {store : Store} (hStore : 0 < store.size)
    (declared : Nat) :
    (single L t store).follow? (.ofNat .eight 1) declared = some ⟨.whole store, t, true⟩ := by
  rw [follow?, viewAt?_single hStore]
  rfl

/-- The object may have any size that the address space leaves it. -/
theorem ofSegments_single {L : Layout} {t : Nat} {store : Store}
    (hStore : 1 + store.size ≤ Numeral.limit64) :
    Snapshot.ofSegments (single L t store).wordSize (single L t store).snapshot.segments.toList =
      .ok (single L t store).snapshot := by
  have hNone : Snapshot.overflowError? .eight (single L t store).snapshot.segments.toList = none := by
    rw [Snapshot.overflowError?, Option.map_eq_none_iff, List.find?_eq_none]
    intro segment hSegment
    rw [List.mem_singleton.mp hSegment]
    have hFits : ¬Numeral.limit64 < 1 + store.size := by omega
    exact fun hOver => hFits (of_decide_eq_true hOver)
  have hOrder : Snapshot.orderError? (single L t store).snapshot.segments.toList = none := rfl
  have hSize : (single L t store).wordSize = .eight := rfl
  rw [Snapshot.ofSegments, hSize, hNone, hOrder]
  rfl

/-- Up to eight bytes before the end of a store, slots can be read. -/
theorem exists_readSlot_whole (h : Heap) {store : Store} {position : Nat} (slot : OffsetSlot)
    (hFits : position + 8 ≤ store.size) :
    ∃ value, h.readSlot (.whole store) slot position = .ok value := by
  have hWidth := (h.slotWidth_cases slot).2
  exact ⟨_, readSlot_window slot (by show position + h.slotWidth slot ≤ store.size; omega)⟩

theorem exists_readWord_whole {store : Store} {position : Nat} (hFits : position + 8 ≤ store.size) :
    ∃ word, (View.whole store).readWord position .eight = .ok word :=
  ⟨_, View.readWord_eq_ok_iff.mpr ⟨_, rfl, hFits, rfl⟩⟩

end Heap

/-- A type with a field is one that there is. -/
theorem Layout.lt_count_of_findField {L : Layout} {t d f : Nat} {name : String}
    (hFound : L.findField t name = some (d, f)) : t < L.count := by
  by_contra hOut
  have hType : L.types[t]? = none := List.getElem?_eq_none (Nat.le_of_not_lt hOut)
  have hDeclared : L.findDeclared t name = none := by simp [findDeclared, fields, hType]
  have hBase : L.base? t = none := by simp [base?, hType]
  simp [findField, findFrom, hDeclared, hBase] at hFound

namespace Heap

/-- The pointers of an object can be read when there is memory as far as the sums of 32 bits go. -/
theorem exists_pointers_single {L : Layout} (hNonneg : L.IsNonneg) {t : Nat} (ht : t < L.count)
    (hArray : L.isArray t = false) (hFits : L.SumsFit t (L.boxing t).toInt) {store : Store}
    (hStore : Numeral.limit32 ≤ store.size) :
    ∃ ps, ((single L t store).pointers (.ofNat .eight 1) t).1 = .ok ps := by
  have hArray' : (single L t store).layout.isArray t = false := hArray
  have hBoxing := Layout.boxing_nonneg hNonneg t
  have hLimit : Numeral.limit32 = 4294967296 := rfl
  obtain ⟨ps, hObject⟩ : ∃ ps, (single L t store).readObject (.whole store)
      ((single L t store).slots t).1 = .ok ps := by
    refine exists_of_readSlot fun slot hSlot => ?_
    rw [slots_object ht hArray'] at hSlot
    obtain ⟨inner, hInner, rfl⟩ := List.mem_map.mp hSlot
    have hNonnegInner := (hFits.mono hBoxing).value_nonneg hNonneg hInner
    have hMoved := hFits.value_le hNonneg hInner hBoxing
    have hPlace := (wrap64_shift (hFits.mono hBoxing) hNonneg hBoxing hInner hMoved).1
    rw [← Int32.toNat_toInt, ← Int32.toNat_toInt] at hPlace
    refine exists_readSlot_whole _ _ ?_
    show wrap64 (inner.value + L.boxing t) + 8 ≤ store.size
    omega
  have hReading : (single L t store).readView (.whole store) t ((single L t store).slots t).1 =
      .ok ⟨ps, none⟩ := by
    simp only [readView, hArray', Bool.false_eq_true, if_false, hObject]
    rfl
  exact ⟨ps, pointers_of_readView ht (viewAt?_single (by omega)) hReading⟩

/-- An array of no elements has no pointers. -/
theorem pointers_single_array {L : Layout} {t : Nat} (ht : t < L.count)
    (hArray : L.isArray t = true) {store : Store} (hPos : 0 < store.size) :
    ((single L t store).pointers (.ofNat .eight 1) t).1 = .ok [] := by
  have hArray' : (single L t store).layout.isArray t = true := hArray
  have hReading : (single L t store).readView (.whole store) t ((single L t store).slots t).1 =
      .ok ⟨[], none⟩ := by
    simp only [readView, hArray', if_true, readArray]
    split <;> rfl
  exact pointers_of_readView ht (viewAt?_single hPos) hReading

/-- Bytes that tell the place of a field in a boxed value from its place without the header: only the
last byte of the former is set. -/
def boxMemory (L : Layout) (d f : Nat) : Store :=
  Store.marked Numeral.limit32 ((L.fieldOffset d f true + L.objectHeader).toNatClampNeg + 7)

theorem size_boxMemory (L : Layout) (d f : Nat) : (boxMemory L d f).size = 4294967296 :=
  Array.size_ofFn

theorem viewAt?_boxMemory (L : Layout) (t d f : Nat) :
    (single L t (boxMemory L d f)).snapshot.viewAt? (.ofNat .eight 1) =
      some (.whole (boxMemory L d f)) :=
  viewAt?_single (by rw [size_boxMemory]; decide)

theorem single_sumsFit {L : Layout} (hNonneg : L.IsNonneg) {t : Nat} (hArray : L.isArray t = false)
    (hFits : L.SumsFit t (L.boxing t).toInt) (store : Store) (address : Word) :
    (single L t store).SumsFit address t := by
  have hBoxing := Layout.boxing_nonneg hNonneg t
  refine ⟨fun _ => ⟨hFits.mono hBoxing, fun slot hSlot => hFits.value_le hNonneg hSlot hBoxing⟩,
    fun element hElement => ?_, fun hSome => ?_⟩
  · obtain ⟨type, hType, hOf⟩ := Option.bind_eq_some_iff.mp hElement
    have hType : L.types[t]? = some type := hType
    have hNone : type.isArray = false := by simpa [Layout.isArray, hType] using hArray
    simp [TypeInfo.element?, hNone] at hOf
  · have hNone : (single L t store).layout.isArray t = false := hArray
    rw [hNone] at hSome
    cases hSome

/-- In these bytes, the own pointer of a boxed value ends with the byte that is set. -/
theorem isNull_own_boxMemory {L : Layout} {t d f : Nat} (hNonneg : L.IsNonneg)
    (hArray : L.isArray t = false) (hFits : L.SumsFit t (L.boxing t).toInt)
    (hRef : L.isValueField d f = false) (hBoxing : L.boxing t = L.objectHeader) {ps : List Pointer}
    (hRead : ((single L t (boxMemory L d f)).pointers (.ofNat .eight 1) t).1 = .ok ps) {p : Pointer}
    (hp : p ∈ ps) (hOwn : L.IsOwn t d f p) : p.value.isNull = false := by
  have hSums : ∀ u, L.index? t = some u →
      (single L t (boxMemory L d f)).SumsFit (.ofNat .eight 1) u := by
    intro u hIndex
    obtain rfl : t = u := Int.natCast_inj.mp (Layout.index?_eq_some_iff.mp hIndex).1
    exact single_sumsFit hNonneg hArray hFits _ _
  obtain ⟨-, -, -, -, -, view, -, hView, -, -, -, -, -, hValue⟩ :=
    exists_struct_of_mem_pointers (single_isBoundOn L t _) hNonneg hSums hRead hp hOwn.slot_eq hRef
  obtain rfl : view = .whole (boxMemory L d f) :=
    Option.some.inj (hView.symm.trans (viewAt?_boxMemory L t d f))
  rw [Bool.eq_false_iff, Ne, isNull_of_readWord_marked hValue, hOwn.position_eq, hBoxing]
  omega

section

variable {L : Layout} {t d f : Nat} {name : String} (hNonneg : L.IsNonneg)
  (hFound : L.findField t name = some (d, f)) (hStatic : L.isStatic d f = false)
  (hRef : L.isValueField d f = false)

include hNonneg hFound hStatic hRef

/-- The offset of a field that is found, in an object and behind its header. -/
theorem fieldOffset_bounds (hFits : L.SumsFit t (L.boxing t).toInt)
    (hBoxing : L.boxing t = L.objectHeader) :
    0 ≤ (L.fieldOffset d f true).toInt ∧ (L.fieldOffset d f true + L.objectHeader).toNatClampNeg =
      L.objectHeader.toNatClampNeg + (L.fieldOffset d f true).toNatClampNeg ∧
      (L.fieldOffset d f true).toInt + L.objectHeader.toInt ≤ 2147483647 := by
  have hHeader := hNonneg.objectHeader
  rw [hBoxing] at hFits
  have hSlot := fieldSlot_mem_slotsOf (r := {}) hFound hStatic hRef
  have hMoved := hFits.value_le hNonneg hSlot hHeader
  exact ⟨(hFits.mono hHeader).value_nonneg hNonneg hSlot,
    (wrap64_shift (hFits.mono hHeader) hNonneg hHeader hSlot hMoved).2, hMoved⟩

/-- In these bytes, a hop by name ends before the byte that is set when there is a header. -/
theorem exists_hop_boxMemory (hFits : L.SumsFit t (L.boxing t).toInt)
    (hBoxing : L.boxing t = L.objectHeader) (hHeader : L.objectHeader ≠ 0) :
    ∃ word, word.isNull = true ∧
      (single L t (boxMemory L d f)).hop ⟨.whole (boxMemory L d f), t, true⟩
        (.named (.field name)) = [.pointer word (L.fieldType d f)] := by
  obtain ⟨hField, hBehind, hMoved⟩ :=
    fieldOffset_bounds hNonneg hFound hStatic hRef hFits hBoxing
  have hPositive : 0 < L.objectHeader.toInt := by
    refine lt_of_le_of_ne hNonneg.objectHeader fun hZero => hHeader (Int32.toInt_inj.mp hZero.symm)
  have hPlace := wrap64_of_nonneg hField
  have hSize := size_boxMemory L d f
  have hFits : wrap64 (L.fieldOffset d f true) + 8 ≤ (boxMemory L d f).size := by omega
  obtain ⟨word, hWord⟩ := exists_readWord_whole hFits
  refine ⟨word, ?_, ?_⟩
  · rw [isNull_of_readWord_marked hWord, hBehind, hPlace, ← Int32.toNat_toInt, ← Int32.toNat_toInt]
    omega
  · have hFound' : (single L t (boxMemory L d f)).layout.findField t name = some (d, f) := hFound
    simp only [hop, hFound']
    exact fieldTargets_of_readWord hStatic hRef hWord

/-- In these bytes, a hop by name finds null where the boxed value has a pointer. -/
theorem not_readsOwn_boxMemory (hFits : L.isArray t = false → L.SumsFit t (L.boxing t).toInt)
    (hCond : L.isArray t = false → L.boxing t ≠ 0) :
    ¬(single L t (boxMemory L d f)).ReadsOwn t d f name := by
  intro hReads
  have hSize := size_boxMemory L d f
  have hPos : 0 < (boxMemory L d f).size := by omega
  have ht := Layout.lt_count_of_findField hFound
  have hFollow := follow?_single (L := L) (t := t) hPos 0
  cases hArray : L.isArray t with
  | true =>
    -- an array without elements has no pointers at all
    obtain ⟨p, hp, -⟩ := hReads _ _ _ _ rfl hFollow rfl (pointers_single_array ht hArray hPos)
    simp at hp
  | false =>
    have hBoxing : L.boxing t = L.objectHeader ∧ L.objectHeader ≠ 0 := by
      have hSome := hCond hArray
      unfold Layout.boxing at hSome ⊢
      split at hSome
      · next hValue => simp [hValue, hSome]
      · simp at hSome
    obtain ⟨ps, hRead⟩ :=
      exists_pointers_single hNonneg ht hArray (hFits hArray) (Nat.le_of_eq hSize.symm)
    obtain ⟨p, hp, hOwn, hHop⟩ := hReads _ _ _ _ rfl hFollow rfl hRead
    obtain ⟨word, hNull, hReadsAs⟩ :=
      exists_hop_boxMemory hNonneg hFound hStatic hRef (hFits hArray) hBoxing.1 hBoxing.2
    have hSame : word = p.value := by
      rw [hHop, List.cons.injEq, Target.pointer.injEq] at hReadsAs
      exact hReadsAs.1.1.symm
    have hFull := isNull_own_boxMemory hNonneg hArray (hFits hArray) hRef hBoxing.1 hRead hp
      hOwn
    rw [hSame, hFull] at hNull
    cases hNull

end

/-- A heap over a layout: its ruleset is bound on the layout, its segments fit the address space. -/
structure IsOver (h : Heap) (L : Layout) : Prop where
  layout_eq : h.layout = L
  bound : h.ruleset.IsBoundOn L
  accepted : Snapshot.ofSegments h.wordSize h.snapshot.segments.toList = .ok h.snapshot

theorem single_isOver (L : Layout) (t d f : Nat) : (single L t (boxMemory L d f)).IsOver L :=
  ⟨rfl, single_isBoundOn L t _, ofSegments_single (by rw [size_boxMemory]; decide)⟩

/-- **Hops by name read own pointers, except in boxed values and arrays.** On objects of type `t`, the
hop to a reference field by its name reads the word of the object's own pointer in every heap, when
the type is no array and no header stands before its objects. On all other types there is a heap in
which it does not, at least where headers and offsets are not negative and their sums are numbers of 32
bits. -/
theorem readsOwn_iff {L : Layout} {t d f : Nat} {name : String}
    (hFound : L.findField t name = some (d, f)) (hStatic : L.isStatic d f = false)
    (hRef : L.isValueField d f = false) :
    (L.isArray t = false ∧ L.boxing t = 0 → ∀ h : Heap, h.IsOver L → h.ReadsOwn t d f name) ∧
      (L.IsNonneg → (L.isArray t = false → L.SumsFit t (L.boxing t).toInt) →
        ¬(L.isArray t = false ∧ L.boxing t = 0) → ∃ h : Heap, h.IsOver L ∧ ¬h.ReadsOwn t d f name) := by
  constructor
  · rintro ⟨hArray, hBoxing⟩ h ⟨rfl, hBound, -⟩
    exact readsOwn_of_boxing hBound hArray hBoxing hFound hStatic hRef
  · intro hNonneg hFits hCond
    exact ⟨_, single_isOver L t d f, not_readsOwn_boxMemory hNonneg hFound hStatic hRef hFits
      fun hArray hBoxing => hCond ⟨hArray, hBoxing⟩⟩

theorem pairHeap_isOver : (pairHeap []).IsOver pairLayout :=
  ⟨rfl, pairHeap_isBoundOn [], rfl⟩

/-- Nodes are read where their pointers lie, boxed pairs are not. -/
theorem readsOwn_node_not_pair :
    (pairHeap []).ReadsOwn 0 0 0 "next" ∧
      ∃ h : Heap, h.IsOver pairLayout ∧ ¬h.ReadsOwn 1 1 1 "second" :=
  ⟨(readsOwn_iff (by decide) (by decide) (by decide)).1 ⟨by decide, by decide⟩ _ pairHeap_isOver,
    (readsOwn_iff (by decide) (by decide) (by decide)).2 pairLayout_isNonneg
      (fun _ => pairLayout_sumsFit (by decide) _ (by decide)) (by decide)⟩

/-- The box of the holder at 16 is a pair at 32 with the nodes 44 and 16. The walk over the box to
its second node finds the first one. -/
theorem not_readsOwn_boxed_pair :
    ¬(pairHeap []).ReadsOwn 1 1 1 "second" ∧
      ((pairHeap []).pointers (.ofNat .four 32) 1).1.toOption.map (·.map (·.value)) =
        some [.ofNat .four 44, .ofNat .four 16] ∧
      (pairHeap []).resolve (.ofNat .four 16) ⟨[.field 2 0], [.field "second"]⟩ =
        .ok [.ofNat .four 44] := by
  refine ⟨fun hReads => ?_, by cbv, by cbv⟩
  obtain ⟨c, hFollow, hType, hHop⟩ : ∃ c, (pairHeap []).follow? (.ofNat .four 32) 0 = some c ∧
      c.type = 1 ∧ (pairHeap []).hop c (.named (.field "second")) = [.pointer (.ofNat .four 44) 0] :=
    ⟨_, by cbv, rfl, by cbv⟩
  obtain ⟨ps, hRead, hAll⟩ : ∃ ps, ((pairHeap []).pointers (.ofNat .four 32) 1).1 = .ok ps ∧
      ∀ p ∈ ps, p.position = 8 → p.value = .ofNat .four 16 := ⟨_, by cbv, by decide⟩
  obtain ⟨p, hp, hOwn, hReadsAs⟩ := hReads _ _ _ _ rfl hFollow hType hRead
  have hValue := hAll p hp hOwn.position_eq
  rw [hHop, hValue] at hReadsAs
  have hSame : Word.ofNat .four 44 = .ofNat .four 16 := by
    simp only [List.cons.injEq, Target.pointer.injEq] at hReadsAs
    exact hReadsAs.1.1
  exact absurd hSame (by decide)

end Heap

end RefRules
