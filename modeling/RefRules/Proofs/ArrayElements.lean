import RefRules.Heap.Walk
import RefRules.Proofs.ArrayReading

/-!
# RefRules — elements of arrays

Arrays are read in two ways: slot by slot, for the pointers of an array, and element by element, where
a walk goes through one. Each way has its own test of where the memory ends. A reference is its one
slot, so there both say the same. A value is met by a walk only as a whole, while its slots are read as
far as they go.

Main results:

* `Heap.elementsFrom_eq` — a walk meets the elements up to the first that is not whole;
* `Heap.exists_takeWhile_placesFrom` — the slots that are read are those of the whole elements, and
  some of the next;
* `Heap.readers_agree` — what the elements of an array have to do with its pointers.
-/

namespace RefRules

namespace Heap

variable {h : Heap} {w : Window}

/-! ## The elements of a walk -/

/-- How many bytes a walk asks for at an element: all of a value, or the word of a reference. -/
def elementWidth (h : Heap) (element stride : Nat) : Nat :=
  if h.layout.isValue element then stride else h.wordSize.bytes

/-- The element in the bytes at a position. -/
def elementIn (h : Heap) (view : View) (element stride position : Nat) : Target :=
  if h.layout.isValue element then valueIn ((view.range position stride).toOption.getD .invalid) element
  else .pointer
    (.ofNat h.wordSize (littleEndian ((view.bytes.drop position).take h.wordSize.bytes))) element

theorem elementAt?_window (element stride position : Nat) :
    h.elementAt? (.window w) element stride position =
      if position + h.elementWidth element stride ≤ w.size then
        some (h.elementIn (.window w) element stride position)
      else none := by
  by_cases hValue : h.layout.isValue element = true
  · simp only [elementAt?, elementIn, elementWidth, if_pos hValue]
    by_cases hFits : position + stride ≤ w.size
    · rw [if_pos hFits, View.range_window hFits]
      rfl
    · rw [if_neg hFits, View.range_window_of_lt (Nat.lt_of_not_le hFits)]
      rfl
  · simp only [elementAt?, elementIn, elementWidth, if_neg hValue, View.readWord, View.readNat]
    by_cases hFits : position + h.wordSize.bytes ≤ w.size
    · rw [if_pos hFits, View.read_eq_bytes hFits]
      rfl
    · rw [if_neg hFits, View.read_window_of_lt (Nat.lt_of_not_le hFits)]
      rfl

/-- **Run lemma.** A walk meets the elements up to the first whose bytes do not lie in the window. -/
theorem elementsFrom_eq (hSize : w.size ≤ Numeral.limit64) {element stride : Nat}
    (hWidth : 0 < h.elementWidth element stride) (first count index : Nat) :
    h.elementsFrom (.window w) element first stride count index =
      ((List.range' index count).takeWhile fun i =>
          decide (i * stride + first + h.elementWidth element stride ≤ w.size)).map
        fun i => h.elementIn (.window w) element stride (i * stride + first) := by
  induction count generalizing index with
  | zero => rfl
  | succ count ih =>
    rw [elementsFrom, List.range'_succ, List.takeWhile_cons, elementAt?_window]
    by_cases hFits : index * stride + first + h.elementWidth element stride ≤ w.size
    · -- what lies in a window begins below the numbers of 64 bits
      simp only [if_neg (by omega : ¬Numeral.limit64 ≤ index * stride + first), if_pos hFits,
        decide_eq_true hFits, if_true, List.map_cons, ih]
    · simp only [if_neg hFits, decide_eq_false hFits, Bool.false_eq_true, if_false, List.map_nil,
        ite_self]

/-! ## References -/

/-- The one slot of an element that is a reference. -/
def referenceSlot (h : Heap) (t : Nat) : OffsetSlot :=
  ⟨0, h.ruleset.flags ⟨t, none⟩, ⟨t, none⟩, 0⟩

theorem slots_of_references {t element : Nat} (hArray : h.layout.isArray t = true)
    (hElement : h.layout.element? t = some element) (hReference : h.layout.isValue element = false) :
    (h.slots t).1 = [h.referenceSlot t] := by
  simp only [layout] at hElement hReference hArray
  simp only [slots, layout, hArray, if_true, OffsetTable.elementSlots, hElement, hReference,
    Bool.false_eq_true, if_false]
  rfl

/-- The slot of a reference lies where its element begins. -/
theorem placesAt_referenceSlot (t : Nat) {start : Nat} (hStart : start < Numeral.limit64) :
    placesAt start [h.referenceSlot t] = [⟨h.referenceSlot t, start⟩] := by
  have hPlace : placeIn start (h.referenceSlot t) = start := Nat.mod_eq_of_lt hStart
  rw [placesAt, List.map_singleton, hPlace]

/-- The places of references that lie in the window are the references that a walk meets. -/
theorem map_pointer_takeWhile_placesFrom {t element stride : Nat}
    (hReference : h.layout.isValue element = false) (first count index : Nat) :
    h.elementsFrom (.window w) element first stride count index =
      ((placesFrom [h.referenceSlot t] first stride index count).takeWhile
          (h.liesIn (.window w))).map fun place =>
        .pointer (h.pointerAt (.window w) place).value element := by
  have hBytes : h.elementWidth element stride = h.wordSize.bytes := by simp [elementWidth, hReference]
  induction count generalizing index with
  | zero => rfl
  | succ count ih =>
    rw [elementsFrom, placesFrom_succ, elementAt?_window, hBytes]
    by_cases hStart : index * stride + first < Numeral.limit64
    · rw [if_neg (Nat.not_le_of_lt hStart), if_pos hStart, placesAt_referenceSlot t hStart,
        List.singleton_append, List.takeWhile_cons]
      by_cases hFits : index * stride + first + h.wordSize.bytes ≤ w.size
      · have hLies : h.liesIn (.window w) ⟨h.referenceSlot t, index * stride + first⟩ = true :=
          liesIn_iff.mpr hFits
        have hElement : h.elementIn (.window w) element stride (index * stride + first) =
            .pointer (h.pointerAt (.window w) ⟨h.referenceSlot t, index * stride + first⟩).value
              element := by
          simp only [elementIn, hReference, Bool.false_eq_true, if_false]
          rfl
        rw [if_pos hFits, if_pos hLies, List.map_cons, ← ih, ← hElement]
      · have hCut : ¬h.liesIn (.window w) ⟨h.referenceSlot t, index * stride + first⟩ = true :=
          mt liesIn_iff.mp hFits
        rw [if_neg hFits, if_neg hCut]
        rfl
    · rw [if_pos (Nat.le_of_not_lt hStart), if_neg hStart]
      rfl

/-! ## Values -/

/-- Slots inside of a value with a size. -/
structure HasInnerSlots (h : Heap) (t : Nat) : Prop where
  size : 0 < (h.layout.elementSize t).toInt
  slots : ∀ slot ∈ (h.slots t).1, 0 ≤ slot.value.toInt ∧
    slot.value.toInt + h.slotWidth slot ≤ (h.layout.elementSize t).toInt

theorem HasInnerSlots.wrap64_size {t : Nat} (hInner : h.HasInnerSlots t) :
    wrap64 (h.layout.elementSize t) = (h.layout.elementSize t).toInt.toNat ∧
      0 < wrap64 (h.layout.elementSize t) := by
  have hPositive := hInner.size
  have hWrap := wrap64_of_nonneg (Int.le_of_lt hPositive)
  exact ⟨hWrap, by omega⟩

/-- The bytes of a slot end with its element at the latest. -/
theorem HasInnerSlots.slot_le {t : Nat} (hInner : h.HasInnerSlots t) {slot : OffsetSlot}
    (hSlot : slot ∈ (h.slots t).1) :
    wrap64 slot.value + h.slotWidth slot ≤ wrap64 (h.layout.elementSize t) := by
  obtain ⟨hNonneg, hInside⟩ := hInner.slots slot hSlot
  rw [hInner.wrap64_size.1, wrap64_of_nonneg hNonneg]
  omega

section

variable {view : View} {slots : List OffsetSlot} {stride : Nat}
  (hRoom : view.size + stride ≤ Numeral.limit64)
  (hSlots : ∀ slot ∈ slots, wrap64 slot.value + h.slotWidth slot ≤ stride)

include hRoom hSlots

/-- When the slots of an element lie in the view without the bytes behind them, nothing is read of the
next element. Its slots lie behind the view, and it does not begin so late that they wrap. -/
theorem takeWhile_placesFrom_eq_nil {first index : Nat}
    (hCut : view.size < index * stride + first + stride)
    (hWhole : h.IsWhole view slots (index * stride + first)) (count : Nat) :
    (placesFrom slots first stride (index + 1) count).takeWhile (h.liesIn view) = [] := by
  cases count with
  | zero => rfl
  | succ count =>
    rw [placesFrom_succ]
    split
    · next hNext =>
      cases slots with
      | nil => rw [placesFrom_nil]; rfl
      | cons slot slots =>
        have hInside := hSlots slot List.mem_cons_self
        have hLies := hWhole slot List.mem_cons_self
        have hWidth := h.slotWidth_pos slot
        rw [Nat.succ_mul] at hNext
        have hHere : placeIn (index * stride + first) slot =
            index * stride + first + wrap64 slot.value := Nat.mod_eq_of_lt (by omega)
        have hThere : placeIn ((index + 1) * stride + first) slot =
            (index + 1) * stride + first + wrap64 slot.value := by
          refine Nat.mod_eq_of_lt ?_
          rw [Nat.succ_mul]
          omega
        have hOut : ¬h.liesIn view ⟨slot, placeIn ((index + 1) * stride + first) slot⟩ = true := by
          rw [liesIn_iff, hThere, Nat.succ_mul]
          dsimp only
          omega
        rw [placesAt, List.map_cons, List.cons_append, List.takeWhile_cons, if_neg hOut]
    · rfl

/-- An element that lies in the view as a whole has all of its slots there. -/
theorem isWhole_of_le {start : Nat} (hFits : start + stride ≤ view.size) :
    h.IsWhole view slots start := by
  intro slot hSlot
  have hInside := hSlots slot hSlot
  have hWidth := h.slotWidth_pos slot
  rw [placeIn, Nat.mod_eq_of_lt (by omega)]
  omega

/-- From an element on that is cut, no places are read but some of its own. -/
theorem takeWhile_placesFrom_of_cut {first index : Nat}
    (hCut : view.size < index * stride + first + stride) (count : Nat) :
    (placesFrom slots first stride index count).takeWhile (h.liesIn view) <+:
      placesAt (index * stride + first) slots := by
  cases count with
  | zero => exact List.nil_prefix
  | succ count =>
    rw [placesFrom_succ]
    split
    · cases hAll : (placesAt (index * stride + first) slots).all (h.liesIn view) with
      | false =>
        rw [takeWhile_append_of_all_eq_false hAll]
        exact List.takeWhile_prefix _
      | true =>
        -- the slots can lie in the view without the bytes behind them; then the view ends there
        rw [List.takeWhile_append_of_pos (List.all_eq_true.mp hAll),
          takeWhile_placesFrom_eq_nil hRoom hSlots hCut (all_placesAt_iff.mp hAll), List.append_nil]
    · exact List.nil_prefix

/-- **Run lemma.** When slots end with their element, the places that are read are those of the
elements that lie in the view as a whole, and some of the next element. -/
theorem exists_takeWhile_placesFrom (hStride : 0 < stride) (first count index : Nat) :
    ∃ n leading,
      (List.range' index count).takeWhile
        (fun i => decide (i * stride + first + stride ≤ view.size)) = List.range' index n ∧
      (n = count ∧ leading = [] ∨
        n < count ∧ view.size < (index + n) * stride + first + stride) ∧
      leading <+: placesAt ((index + n) * stride + first) slots ∧
      (placesFrom slots first stride index count).takeWhile (h.liesIn view) =
        ((List.range' index n).flatMap fun i => placesAt (i * stride + first) slots) ++ leading := by
  induction count generalizing index with
  | zero => exact ⟨0, [], rfl, .inl ⟨rfl, rfl⟩, List.nil_prefix, rfl⟩
  | succ count ih =>
    rw [List.range'_succ, List.takeWhile_cons]
    by_cases hFits : index * stride + first + stride ≤ view.size
    · -- a whole element has all of its slots, and the rest is read from the next one on
      obtain ⟨n, leading, hRange, hEnd, hLeading, hRest⟩ := ih (index + 1)
      have hNext : index + 1 + n = index + (n + 1) := by omega
      rw [hNext] at hEnd hLeading
      refine ⟨n + 1, leading, ?_, ?_, hLeading, ?_⟩
      · rw [decide_eq_true hFits, if_pos rfl, hRange, List.range'_succ]
      · exact hEnd.imp (fun hAll => ⟨congrArg Nat.succ hAll.1, hAll.2⟩)
          fun hCut => ⟨Nat.succ_lt_succ hCut.1, hCut.2⟩
      · have hWhole := isWhole_of_le hRoom hSlots hFits
        have hAll := List.all_eq_true.mp (all_placesAt_iff.mpr hWhole)
        rw [placesFrom_succ, if_pos (by omega), List.takeWhile_append_of_pos hAll, hRest,
          List.range'_succ, List.flatMap_cons, List.append_assoc]
    · have hCut := Nat.lt_of_not_le hFits
      refine ⟨0, _, ?_, .inr ⟨Nat.succ_pos count, hCut⟩,
        takeWhile_placesFrom_of_cut hRoom hSlots hCut (count + 1), rfl⟩
      rw [decide_eq_false hFits]
      rfl

end

/-! ## Both ways at an array -/

/-- Where element `i` of an array of type `t` begins. -/
def elementStart (h : Heap) (t i : Nat) : Nat :=
  i * wrap64 (h.layout.elementSize t) + wrap64 h.layout.arrayHeader

/-- The targets are the values of an array that lie in its memory as a whole, and the pointers are all
of their slots, and some of those of the next value. -/
structure AgreeOnValues (h : Heap) (view : View) (t element length : Nat) (targets : List Target)
    (ps : List Pointer) : Prop where
  whole : ∀ i, i < targets.length ↔
    i < length ∧ h.elementStart t i + wrap64 (h.layout.elementSize t) ≤ view.size
  value : ∀ i < targets.length, ∃ part,
    view.range (h.elementStart t i) (wrap64 (h.layout.elementSize t)) = .ok part ∧
      targets[i]? = some (valueIn part element)
  slots : ∃ leading,
    leading <+: placesAt (h.elementStart t targets.length) (h.slots t).1 ∧
      (targets.length = length → leading = []) ∧
      ps = (((List.range targets.length).flatMap fun i => placesAt (h.elementStart t i) (h.slots t).1) ++
        leading).map (h.pointerAt view)

variable {t element length : Nat} {address : Word} {view : View}

/-- What a hop to the elements leads to, when their number can be read and they lie apart. -/
theorem elementTargets_eq (hElement : h.layout.element? t = some element)
    (hLength : h.format.arrayLength view t = .ok length)
    (hStride : wrap64 (h.layout.elementSize t) ≠ 0) :
    h.elementTargets view t = h.elementsFrom view element (wrap64 h.layout.arrayHeader)
      (wrap64 (h.layout.elementSize t)) length 0 := by
  rw [elementTargets, hElement]
  simp only [hLength, if_neg hStride]

theorem isArray_of_element? (hElement : h.layout.element? t = some element) :
    h.layout.isArray t = true ∧ t < h.layout.count := by
  obtain ⟨type, hType, hOf⟩ := Option.bind_eq_some_iff.mp hElement
  simp only [TypeInfo.element?, Option.ite_none_right_eq_some] at hOf
  exact ⟨by simp [Layout.isArray, hType, hOf.1], (List.getElem?_eq_some_iff.mp hType).1⟩

theorem elementSize_of_references (hElement : h.layout.element? t = some element)
    (hReference : h.layout.isValue element = false) :
    wrap64 (h.layout.elementSize t) ≠ 0 := by
  obtain ⟨type, hType, hOf⟩ := Option.bind_eq_some_iff.mp hElement
  simp only [TypeInfo.element?, Option.ite_none_right_eq_some] at hOf
  have hRelated : h.layout.related? t = some element := by simp [Layout.related?, hType, hOf.2]
  rw [Layout.elementSize, hRelated]
  simp only [hReference, Bool.false_eq_true, if_false]
  cases h.layout.wordSize <;> decide

/-- The values that a walk meets, against the places that are read. -/
theorem agreeOnValues (hMemory : w.size ≤ 2 ^ 63) (hInner : h.HasInnerSlots t)
    (hValue : h.layout.isValue element = true) (length : Nat) :
    h.AgreeOnValues (.window w) t element length
      (h.elementsFrom (.window w) element (wrap64 h.layout.arrayHeader)
        (wrap64 (h.layout.elementSize t)) length 0)
      (((placesFrom (h.slots t).1 (wrap64 h.layout.arrayHeader) (wrap64 (h.layout.elementSize t)) 0
        length).takeWhile (h.liesIn (.window w))).map (h.pointerAt (.window w))) := by
  have hBytes : h.elementWidth element (wrap64 (h.layout.elementSize t)) =
      wrap64 (h.layout.elementSize t) := by simp [elementWidth, hValue]
  have hPositive := hInner.wrap64_size.2
  have hViewSize : (View.window w).size = w.size := rfl
  have hSize : (View.window w).size + wrap64 (h.layout.elementSize t) ≤ Numeral.limit64 := by
    have hStride := wrap64_lt_of_nonneg (Int.le_of_lt hInner.size)
    rw [Numeral.limit64, hViewSize]
    omega
  obtain ⟨n, leading, hRange, hEnd, hLeading, hPlaces⟩ :=
    exists_takeWhile_placesFrom (h := h) hSize (fun _ => hInner.slot_le) hPositive
      (wrap64 h.layout.arrayHeader) length 0
  rw [hViewSize] at hRange hEnd
  rw [elementsFrom_eq (Nat.le_trans (Nat.le_add_right ..) hSize) (by omega), hBytes, hRange, hPlaces]
  rw [Nat.zero_add] at hEnd hLeading
  have hWholeOf {i : Nat} (hi : i < n) : i < length ∧
      h.elementStart t i + wrap64 (h.layout.elementSize t) ≤ w.size := by
    have hMem : i ∈ List.range' 0 n := List.mem_range'_1.mpr ⟨Nat.zero_le i, by omega⟩
    rw [← hRange] at hMem
    have hRead := List.mem_range'_1.mp ((List.takeWhile_sublist _).mem hMem)
    have hWhole := List.mem_takeWhile_imp hMem
    exact ⟨by omega, of_decide_eq_true hWhole⟩
  refine ⟨fun i => ?_, fun i hi => ?_, leading, ?_, ?_, ?_⟩
  · rw [List.length_map, List.length_range', hViewSize]
    refine ⟨hWholeOf, ?_⟩
    rintro ⟨hi, hWhole⟩
    -- no element behind one that is cut is whole
    by_contra hBehind
    have hOrder := Nat.mul_le_mul_right (wrap64 (h.layout.elementSize t)) (Nat.le_of_not_lt hBehind)
    rw [elementStart] at hWhole
    omega
  · rw [List.length_map, List.length_range'] at hi
    have hPart := View.range_window (hWholeOf hi).2
    refine ⟨_, hPart, ?_⟩
    unfold elementStart at hPart ⊢
    rw [List.getElem?_map, List.getElem?_range' hi, Option.map_some]
    simp only [Nat.zero_add, Nat.one_mul, elementIn, hValue, if_true, hPart]
    rfl
  · rwa [List.length_map, List.length_range']
  · rw [List.length_map, List.length_range']
    intro hn
    rcases hEnd with ⟨-, hNone⟩ | ⟨hCut, -⟩
    · exact hNone
    · omega
  · rw [List.length_map, List.length_range', List.range_eq_range']
    rfl

/-- **Both ways to read an array agree.** Where the length of an array can be read, a hop to its
elements leads to the same words as the pointers of the array hold, in the same order, when the
elements are references; values with a size, in less than half of the address space, are met by the hop
exactly when they lie in the memory as a whole, and the pointers are all of their slots, and at most some
of those of the next value. Where the length cannot be read, the hop leads nowhere. -/
theorem readers_agree (hElement : h.layout.element? t = some element)
    (hView : h.snapshot.viewAt? address = some view) (hasHeader : Bool) :
    h.hop ⟨view, t, hasHeader⟩ (.fixed (.elements t)) =
        h.hop ⟨view, t, hasHeader⟩ (.named .elements) ∧
      (∀ fault, h.format.arrayLength view t = .error fault →
        h.hop ⟨view, t, hasHeader⟩ (.named .elements) = []) ∧
      ∀ length, h.format.arrayLength view t = .ok length →
        ∃ ps, (h.pointers address t).1 = .ok ps ∧
          (h.layout.isValue element = false →
            h.hop ⟨view, t, hasHeader⟩ (.named .elements) =
              ps.map fun p => .pointer p.value element) ∧
          (h.layout.isValue element = true → view.size ≤ 2 ^ 63 → h.HasInnerSlots t →
            h.AgreeOnValues view t element length
              (h.hop ⟨view, t, hasHeader⟩ (.named .elements)) ps) := by
  have hHop : h.hop ⟨view, t, hasHeader⟩ (.named .elements) = h.elementTargets view t := rfl
  obtain ⟨hArray, ht⟩ := isArray_of_element? hElement
  obtain ⟨w, rfl⟩ := Snapshot.exists_window_of_viewAt? hView
  rw [hHop]
  refine ⟨rfl, fun fault hFault => ?_, fun length hLength => ?_⟩
  · rw [elementTargets, hElement]
    simp only [hFault]
  · refine ⟨_, pointers_of_isArray ht hArray hView hLength, fun hReference => ?_,
      fun hValue hMemory hInner => ?_⟩
    · rw [elementTargets_eq hElement hLength (elementSize_of_references hElement hReference),
        slots_of_references hArray hElement hReference, List.map_map]
      exact map_pointer_takeWhile_placesFrom hReference _ _ _
    · rw [elementTargets_eq hElement hLength (Nat.ne_of_gt hInner.wrap64_size.2)]
      exact agreeOnValues hMemory hInner hValue length

/-- In a row whose memory ends between the nodes of its second pair, a walk meets the first pair, and
three nodes are read. -/
theorem readers_agree_row :
    (rowHeap 8).HasInnerSlots 2 ∧
      ∃ ps, ((rowHeap 8).pointers (.ofNat .four 16) 2).1 = .ok ps ∧ ps.length = 3 ∧
        ((rowHeap 8).hop ⟨.whole rowMemory, 2, true⟩ (.named .elements)).length = 1 ∧
        (rowHeap 8).AgreeOnValues (.whole rowMemory) 2 1 21
          ((rowHeap 8).hop ⟨.whole rowMemory, 2, true⟩ (.named .elements)) ps := by
  have hInner : (rowHeap 8).HasInnerSlots 2 := ⟨by decide, by decide⟩
  have hView : (rowHeap 8).snapshot.viewAt? (.ofNat .four 16) = some (.whole rowMemory) := by cbv
  have hLength : (rowHeap 8).format.arrayLength (.whole rowMemory) 2 = .ok 21 := rfl
  have hElement : (rowHeap 8).layout.element? 2 = some 1 := rfl
  obtain ⟨-, -, hRead⟩ := readers_agree hElement hView true
  obtain ⟨ps, hPointers, -, hValues⟩ := hRead 21 hLength
  have hCount : ((rowHeap 8).pointers (.ofNat .four 16) (2 : Nat)).1.map List.length = .ok 3 := by cbv
  rw [hPointers, Except.map, Except.ok.injEq] at hCount
  exact ⟨hInner, ps, hPointers, hCount, by cbv, hValues rfl (by decide) hInner⟩

end Heap

end RefRules
