import RefRules.Proofs.BaseChain
import RefRules.Proofs.Conditions
import RefRules.Proofs.Lookup

/-!
# RefRules — arrays that are cut short

The memory of an array can end before its last element, also between two slots of one element. Its
slots are read element by element, up to the first that does not lie in the memory; the length word,
which can be any number, only says where the reading ends at the latest. An element that would begin
beyond the numbers of 64 bits ends the reading too, but the sum of its start and the offset of a slot
wraps, so what is read can lie in front of the element. Where header, size and offsets are not negative,
no place that is looked at has wrapped.

Main definitions and results:

* `Heap.arrayPlaces` — the places of all slots of an array, in their order;
* `Heap.exists_readElements` — the loop over the elements yields the places that lie in the memory,
  up to the first that does not;
* `Heap.lt_limit64_of_before` — how far the places that are looked at go;
* `Heap.pointers_of_array` — what an array at an address yields;
* `Heap.length_pointers_le_iff` — when an array yields no more than its memory has room for, whatever
  its length word says.
-/

namespace RefRules

/-! ## Places -/

/-- A slot at a position of an array. -/
structure Place where
  slot : OffsetSlot
  position : Nat

/-- The places of the slots of an element that begins at `start`. -/
def placesAt (start : Nat) (slots : List OffsetSlot) : List Place :=
  slots.map fun slot => ⟨slot, Heap.placeIn start slot⟩

/-- Where `count` elements from number `index` on begin, up to the first that is beyond the numbers of
64 bits. -/
def startsFrom (first stride index count : Nat) : List Nat :=
  ((List.range' index count).map fun i => i * stride + first).takeWhile (· < Numeral.limit64)

/-- The places in `count` elements from number `index` on, in the order of the elements and in each of
them in the order of the slots. -/
def placesFrom (slots : List OffsetSlot) (first stride index count : Nat) : List Place :=
  (startsFrom first stride index count).flatMap fun start => placesAt start slots

/-- Without slots there are no places. -/
theorem placesFrom_nil (first stride index count : Nat) : placesFrom [] first stride index count = [] :=
  List.flatMap_eq_nil_iff.mpr fun _ _ => rfl

theorem placesFrom_succ (slots : List OffsetSlot) (first stride index count : Nat) :
    placesFrom slots first stride index (count + 1) =
      if index * stride + first < Numeral.limit64 then
        placesAt (index * stride + first) slots ++ placesFrom slots first stride (index + 1) count
      else [] := by
  rw [placesFrom, startsFrom, List.range'_succ, List.map_cons, List.takeWhile_cons]
  by_cases hStart : index * stride + first < Numeral.limit64
  · rw [decide_eq_true hStart, if_pos rfl, if_pos hStart]
    rfl
  · rw [decide_eq_false hStart, if_neg Bool.false_ne_true, if_neg hStart]
    rfl

namespace Heap

/-- The bytes of the place lie in the view. -/
def liesIn (h : Heap) (view : View) (p : Place) : Bool :=
  decide (p.position + h.slotWidth p.slot ≤ view.size)

/-- The number in the bytes of a place, as a word. -/
def wordAt (h : Heap) (view : View) (p : Place) : Word :=
  .ofNat h.wordSize (littleEndian ((view.bytes.drop p.position).take (h.slotWidth p.slot)))

/-- The pointer that is read at a place. -/
def pointerAt (h : Heap) (view : View) (p : Place) : Pointer :=
  { p.slot.withValue (h.wordAt view p) with position := p.position }

variable {h : Heap} {w : Window}

theorem liesIn_iff {view : View} {p : Place} :
    h.liesIn view p = true ↔ p.position + h.slotWidth p.slot ≤ view.size :=
  decide_eq_true_iff

theorem all_placesAt_iff {view : View} {start : Nat} {slots : List OffsetSlot} :
    (placesAt start slots).all (h.liesIn view) = true ↔ h.IsWhole view slots start := by
  simp only [placesAt, List.all_eq_true, List.forall_mem_map, liesIn_iff, IsWhole]

/-- A place that lies in a window can be read. -/
theorem readSlot_of_liesIn {p : Place} (hLies : h.liesIn (.window w) p = true) :
    h.readSlot (.window w) p.slot p.position = .ok (h.wordAt (.window w) p) :=
  readSlot_window p.slot (liesIn_iff.mp hLies)

/-! ## One element -/

/-- An element is read up to its first slot that does not lie in the window. -/
theorem readElement_eq (start : Nat) (slots : List OffsetSlot) :
    h.readElement (.window w) start slots =
      .ok (((placesAt start slots).takeWhile (h.liesIn (.window w))).map (h.pointerAt (.window w)),
        (placesAt start slots).all (h.liesIn (.window w))) := by
  induction slots with
  | nil => rfl
  | cons slot slots ih =>
    have hPlaces : placesAt start (slot :: slots) =
        ⟨slot, placeIn start slot⟩ :: placesAt start slots := rfl
    rw [hPlaces, List.takeWhile_cons, List.all_cons, readElement]
    by_cases hLies : h.liesIn (.window w) ⟨slot, placeIn start slot⟩ = true
    · have hRead := readSlot_of_liesIn hLies
      simp only [if_pos (liesIn_iff.mp hLies), hRead, ih, ok_bind, hLies, if_true, List.map_cons,
        Bool.true_and]
      rfl
    · have hOut := mt liesIn_iff.mpr hLies
      simp only [if_neg hOut, hLies, Bool.false_eq_true, if_false, Bool.false_and]
      rfl

/-! ## The loop -/

/-- The places from an element on that is not whole end within it. -/
theorem takeWhile_append_of_all_eq_false {α : Type} {p : α → Bool} {xs : List α}
    (hAll : xs.all p = false) (ys : List α) : (xs ++ ys).takeWhile p = xs.takeWhile p := by
  rw [List.takeWhile_append, if_neg]
  intro hLength
  have hSelf := (List.takeWhile_prefix p).eq_of_length hLength
  rw [List.takeWhile_eq_self_iff, ← List.all_eq_true, hAll] at hSelf
  cases hSelf

/-- **Run lemma.** The loop reads the places of its elements up to the first that does not lie in the
window, and it does not fail. -/
theorem exists_readElements (slots : List OffsetSlot) (first stride count index : Nat) :
    ∃ cut, h.readElements (.window w) slots first stride count index =
      .ok ⟨((placesFrom slots first stride index count).takeWhile (h.liesIn (.window w))).map
        (h.pointerAt (.window w)), cut⟩ := by
  -- on the number of elements; each one is whole, or the reading ends with it
  induction count generalizing index with
  | zero => exact ⟨none, rfl⟩
  | succ count ih =>
    rw [readElements, placesFrom_succ]
    dsimp only
    by_cases hStart : index * stride + first < Numeral.limit64
    · rw [if_pos hStart, if_neg (Nat.not_le_of_lt hStart), readElement_eq, ok_bind]
      cases hAll : (placesAt (index * stride + first) slots).all (h.liesIn (.window w)) with
      | true =>
        obtain ⟨cut, hRest⟩ := ih (index + 1)
        refine ⟨cut, ?_⟩
        rw [List.takeWhile_append_of_pos (List.all_eq_true.mp hAll),
          List.takeWhile_eq_self_iff.mpr (List.all_eq_true.mp hAll), if_pos rfl, hRest, ok_bind,
          List.map_append]
        rfl
      | false =>
        refine ⟨some index, ?_⟩
        rw [takeWhile_append_of_all_eq_false hAll]
        rfl
    · refine ⟨none, ?_⟩
      rw [if_neg hStart, if_pos (Nat.le_of_not_lt hStart)]
      rfl

/-! ## Places that do not wrap -/

/-- **Run lemma.** In memory that leaves room for an element behind it, the places of an element do not
wrap when those of the first do not, and all elements before it lie in the memory. -/
theorem lt_limit64_of_before {view : View} {slots : List OffsetSlot} {first stride i : Nat}
    (hRoom : view.size + stride ≤ Numeral.limit64)
    (hFirst : ∀ slot ∈ slots, first + wrap64 slot.value < Numeral.limit64)
    (hBefore : ∀ j < i, h.IsWhole view slots (j * stride + first)) :
    ∀ slot ∈ slots, i * stride + first + wrap64 slot.value < Numeral.limit64 := by
  induction i with
  | zero => simpa using hFirst
  | succ i ih =>
    intro slot hSlot
    -- the same slot lies in the view one element before
    have hHere := ih (fun j hj => hBefore j (Nat.lt_succ_of_lt hj)) slot hSlot
    have hLies := hBefore i (Nat.lt_succ_self i) slot hSlot
    have hWidth := h.slotWidth_pos slot
    rw [placeIn, Nat.mod_eq_of_lt hHere] at hLies
    rw [Nat.succ_mul]
    omega

/-- The places of the slots of an element, by sums that do not wrap. -/
def exactPlacesAt (start : Nat) (slots : List OffsetSlot) : List Place :=
  slots.map fun slot => ⟨slot, start + wrap64 slot.value⟩

/-- The places in `count` elements from number `index` on, by sums that do not wrap. -/
def exactPlacesFrom (slots : List OffsetSlot) (first stride index count : Nat) : List Place :=
  (List.range' index count).flatMap fun i => exactPlacesAt (i * stride + first) slots

theorem exactPlacesFrom_succ (slots : List OffsetSlot) (first stride index count : Nat) :
    exactPlacesFrom slots first stride index (count + 1) =
      exactPlacesAt (index * stride + first) slots ++
        exactPlacesFrom slots first stride (index + 1) count := by
  rw [exactPlacesFrom, List.range'_succ, List.flatMap_cons]
  rfl

theorem placesAt_eq_exactPlacesAt {start : Nat} {slots : List OffsetSlot}
    (hLess : ∀ slot ∈ slots, start + wrap64 slot.value < Numeral.limit64) :
    placesAt start slots = exactPlacesAt start slots :=
  List.map_congr_left fun slot hSlot => by rw [placeIn, Nat.mod_eq_of_lt (hLess slot hSlot)]

section

variable {view : View} {slots : List OffsetSlot} {first stride : Nat}
  (hRoom : view.size + stride ≤ Numeral.limit64)
  (hFirst : ∀ slot ∈ slots, first + wrap64 slot.value < Numeral.limit64)

include hRoom hFirst

/-- **Run lemma.** What is read are the places up to the first that does not lie in the view, and their
sums are exact. -/
theorem takeWhile_placesFrom_eq (count : Nat) {index : Nat}
    (hBefore : ∀ j < index, h.IsWhole view slots (j * stride + first)) :
    (placesFrom slots first stride index count).takeWhile (h.liesIn view) =
      (exactPlacesFrom slots first stride index count).takeWhile (h.liesIn view) := by
  cases hSlots : slots with
  | nil =>
    have hNone : exactPlacesFrom [] first stride index count = [] :=
      List.flatMap_eq_nil_iff.mpr fun _ _ => rfl
    rw [hNone, placesFrom_nil]
  | cons slot later =>
    rw [← hSlots]
    have hSlot : slot ∈ slots := by simp [hSlots]
    induction count generalizing index with
    | zero => rfl
    | succ count ih =>
      have hPlaces := lt_limit64_of_before hRoom hFirst hBefore
      have hStart : index * stride + first < Numeral.limit64 :=
        Nat.lt_of_le_of_lt (Nat.le_add_right ..) (hPlaces slot hSlot)
      rw [placesFrom_succ, if_pos hStart, exactPlacesFrom_succ, ← placesAt_eq_exactPlacesAt hPlaces]
      cases hAll : (placesAt (index * stride + first) slots).all (h.liesIn view) with
      | true =>
        have hHere := all_placesAt_iff.mp hAll
        rw [List.takeWhile_append_of_pos (List.all_eq_true.mp hAll),
          List.takeWhile_append_of_pos (List.all_eq_true.mp hAll), ih (isWhole_of_lt_succ hBefore hHere)]
      | false => rw [takeWhile_append_of_all_eq_false hAll, takeWhile_append_of_all_eq_false hAll]

end

/-! ## Places that are looked at -/

/-- The places that are read, and the one at which the reading stops. -/
def lookedAt (h : Heap) (view : View) (places : List Place) : List Place :=
  places.take ((places.takeWhile (h.liesIn view)).length + 1)

/-- **Step lemma.** When an element is whole the next one is looked at, else no further place than the
first of its own that does not lie in the view. -/
theorem mem_lookedAt_append {view : View} {xs ys : List Place} {place : Place}
    (hPlace : place ∈ h.lookedAt view (xs ++ ys)) :
    place ∈ xs ∨ xs.all (h.liesIn view) = true ∧ place ∈ h.lookedAt view ys := by
  unfold lookedAt at hPlace ⊢
  cases hAll : xs.all (h.liesIn view) with
  | true =>
    rw [List.takeWhile_append_of_pos (List.all_eq_true.mp hAll), List.length_append, Nat.add_assoc,
      List.take_length_add_append, List.mem_append] at hPlace
    exact hPlace.imp_right fun hLater => ⟨rfl, hLater⟩
  | false =>
    left
    rw [takeWhile_append_of_all_eq_false hAll] at hPlace
    have hPrefix := List.takeWhile_prefix (h.liesIn view) (l := xs)
    have hShort : (xs.takeWhile (h.liesIn view)).length ≠ xs.length := by
      intro hLength
      rw [← hPrefix.eq_of_length hLength, List.all_takeWhile] at hAll
      cases hAll
    have hLess := hPrefix.length_le
    rw [List.take_append_of_le_length (by omega)] at hPlace
    exact List.mem_of_mem_take hPlace

/-- **Run lemma.** No place that is looked at is beyond the numbers of 64 bits. -/
theorem position_lt_of_mem_lookedAt {view : View} {slots : List OffsetSlot} {first stride : Nat}
    (hRoom : view.size + stride ≤ Numeral.limit64)
    (hFirst : ∀ slot ∈ slots, first + wrap64 slot.value < Numeral.limit64) (count : Nat) {index : Nat}
    (hBefore : ∀ j < index, h.IsWhole view slots (j * stride + first)) {place : Place}
    (hPlace : place ∈ h.lookedAt view (exactPlacesFrom slots first stride index count)) :
    place.position < Numeral.limit64 := by
  induction count generalizing index with
  | zero => simp [exactPlacesFrom, lookedAt] at hPlace
  | succ count ih =>
    have hPlaces := lt_limit64_of_before hRoom hFirst hBefore
    rw [exactPlacesFrom_succ] at hPlace
    rcases mem_lookedAt_append hPlace with hHere | ⟨hAll, hLater⟩
    · obtain ⟨slot, hSlot, rfl⟩ := List.mem_map.mp hHere
      exact hPlaces slot hSlot
    · rw [← placesAt_eq_exactPlacesAt hPlaces, all_placesAt_iff] at hAll
      exact ih (isWhole_of_lt_succ hBefore hAll) hLater

/-! ## Arrays at an address -/

variable {t length : Nat} {address : Word} {view : View}

/-- An array is read from its header on; one whose elements have no slots is not read at all. -/
theorem exists_readArray {slots : List OffsetSlot}
    (hLength : h.format.arrayLength (.window w) t = .ok length) :
    ∃ cut, h.readArray (.window w) t slots =
      .ok ⟨((placesFrom slots (wrap64 h.layout.arrayHeader) (wrap64 (h.layout.elementSize t)) 0
        length).takeWhile (h.liesIn (.window w))).map (h.pointerAt (.window w)), cut⟩ := by
  by_cases hSlots : slots = []
  · refine ⟨none, ?_⟩
    rw [hSlots, placesFrom_nil]
    rfl
  · obtain ⟨cut, hElements⟩ := exists_readElements (h := h) (w := w) slots
      (wrap64 h.layout.arrayHeader) (wrap64 (h.layout.elementSize t)) length 0
    refine ⟨cut.map fun index => (index, length), ?_⟩
    rw [readArray, if_neg (by simpa using hSlots), hLength, ok_bind]
    dsimp only
    rw [hElements]
    rfl

/-- What an array yields, by the numbers that its places are computed with. -/
theorem pointers_of_isArray (ht : t < h.layout.count) (hArray : h.layout.isArray t = true)
    (hView : h.snapshot.viewAt? address = some view)
    (hLength : h.format.arrayLength view t = .ok length) :
    (h.pointers address t).1 =
      .ok (((placesFrom (h.slots t).1 (wrap64 h.layout.arrayHeader)
        (wrap64 (h.layout.elementSize t)) 0 length).takeWhile (h.liesIn view)).map
          (h.pointerAt view)) := by
  obtain ⟨w, rfl⟩ := Snapshot.exists_window_of_viewAt? hView
  obtain ⟨cut, hReading⟩ := exists_readArray hLength
  have hRead : h.readView (.window w) t (h.slots t).1 = h.readArray (.window w) t (h.slots t).1 :=
    if_pos hArray
  exact pointers_of_readView ht hView (hRead.trans hReading)

/-- The header of arrays, the size of the elements and the offsets of their slots are not negative. -/
structure HasForwardPlaces (h : Heap) (t : Nat) : Prop where
  header : 0 ≤ h.layout.arrayHeader.toInt
  stride : 0 ≤ (h.layout.elementSize t).toInt
  slots : ∀ slot ∈ (h.slots t).1, 0 ≤ slot.value.toInt

theorem wrap64_lt_of_nonneg {n : Int32} (hn : 0 ≤ n.toInt) : wrap64 n < 2 ^ 31 := by
  have := n.toInt_lt
  rw [wrap64_of_nonneg hn]
  omega

theorem HasForwardPlaces.room (hForward : h.HasForwardPlaces t) (hMemory : view.size ≤ 2 ^ 63) :
    view.size + wrap64 (h.layout.elementSize t) ≤ Numeral.limit64 := by
  have hStride := wrap64_lt_of_nonneg hForward.stride
  rw [Numeral.limit64]
  omega

theorem HasForwardPlaces.first (hForward : h.HasForwardPlaces t) :
    ∀ slot ∈ (h.slots t).1, wrap64 h.layout.arrayHeader + wrap64 slot.value < Numeral.limit64 := by
  intro slot hSlot
  have hHeader := wrap64_lt_of_nonneg hForward.header
  have hOffset := wrap64_lt_of_nonneg (hForward.slots slot hSlot)
  rw [Numeral.limit64]
  omega

/-- The places in an array of type `t` with `length` elements: the slots of each element in their order,
behind the header and the elements before. -/
def arrayPlaces (h : Heap) (t length : Nat) : List Place :=
  (List.range length).flatMap fun index => (h.slots t).1.map fun slot =>
    ⟨slot, h.layout.arrayHeader.toNatClampNeg + index * (h.layout.elementSize t).toNatClampNeg +
      slot.value.toNatClampNeg⟩

theorem arrayPlaces_eq (hForward : h.HasForwardPlaces t) (length : Nat) :
    h.arrayPlaces t length = exactPlacesFrom (h.slots t).1 (wrap64 h.layout.arrayHeader)
      (wrap64 (h.layout.elementSize t)) 0 length := by
  rw [arrayPlaces, exactPlacesFrom, List.range_eq_range']
  refine List.flatMap_congr fun index _ => List.map_congr_left fun slot hSlot => ?_
  rw [wrap64_of_nonneg hForward.header, wrap64_of_nonneg hForward.stride,
    wrap64_of_nonneg (hForward.slots slot hSlot), Nat.add_comm (index * _)]
  rfl

/-- The bytes of a place are read at the width of its slot, and of their number the word has as much as
it has room for. -/
theorem exists_read_of_liesIn {place : Place} (hLies : h.liesIn (.window w) place = true) :
    ∃ bytes, (View.window w).read place.position (h.slotWidth place.slot) = .ok bytes ∧
      (h.wordAt (.window w) place).value = littleEndian bytes % h.wordSize.limit :=
  ⟨_, View.read_eq_bytes (liesIn_iff.mp hLies), rfl⟩

/-- **Arrays are read as far as their memory goes.** An array in less than half of the address space
yields the pointers at its places up to the first place that does not lie in its memory, whatever its
length word says, and never fails. The number that is stored at a place, at the width of its slot, is
what the pointer holds exactly when a word has room for it, as it always has for that of a slot which
is no wider than a word; else the pointer holds the low bytes. No place that is looked at is beyond the
numbers of 64 bits. -/
theorem pointers_of_array (ht : t < h.layout.count) (hArray : h.layout.isArray t = true)
    (hForward : h.HasForwardPlaces t) (hView : h.snapshot.viewAt? address = some view)
    (hMemory : view.size ≤ 2 ^ 63) (hLength : h.format.arrayLength view t = .ok length) :
    (h.pointers address t).1 =
        .ok (((h.arrayPlaces t length).takeWhile (h.liesIn view)).map (h.pointerAt view)) ∧
      (∀ place ∈ (h.arrayPlaces t length).takeWhile (h.liesIn view), ∃ bytes,
        view.read place.position (h.slotWidth place.slot) = .ok bytes ∧
          (h.pointerAt view place).value.value = littleEndian bytes % h.wordSize.limit ∧
          ((h.pointerAt view place).value.value = littleEndian bytes ↔
            littleEndian bytes < h.wordSize.limit) ∧
          (h.slotWidth place.slot ≤ h.wordSize.bytes → littleEndian bytes < h.wordSize.limit)) ∧
      ∀ place ∈ h.lookedAt view (h.arrayPlaces t length), place.position < Numeral.limit64 := by
  have hNone : ∀ j < 0, h.IsWhole view (h.slots t).1
      (j * wrap64 (h.layout.elementSize t) + wrap64 h.layout.arrayHeader) :=
    fun j hj => absurd hj (Nat.not_lt_zero j)
  have hRoom := hForward.room hMemory
  have hFirst := hForward.first
  refine ⟨?_, fun place hPlace => ?_, fun place hPlace => ?_⟩
  · rw [arrayPlaces_eq hForward, ← takeWhile_placesFrom_eq hRoom hFirst length hNone]
    exact pointers_of_isArray ht hArray hView hLength
  · obtain ⟨w, rfl⟩ := Snapshot.exists_window_of_viewAt? hView
    obtain ⟨bytes, hBytes, hValue⟩ := exists_read_of_liesIn (List.mem_takeWhile_imp hPlace)
    refine ⟨bytes, hBytes, hValue, ?_, fun hWidth => ?_⟩
    · show (h.wordAt (.window w) place).value = _ ↔ _
      rw [hValue]
      exact ⟨fun hSame => hSame ▸ Nat.mod_lt _ h.wordSize.limit_pos, Nat.mod_eq_of_lt⟩
    · have hLess := littleEndian_lt bytes
      rw [View.length_of_read hBytes] at hLess
      rw [WordSize.limit_eq]
      exact Nat.lt_of_lt_of_le hLess (Nat.pow_le_pow_right (by decide) hWidth)
  · rw [arrayPlaces_eq hForward] at hPlace
    exact position_lt_of_mem_lookedAt hRoom hFirst length hNone hPlace

/-! ## A row of pairs -/

/-- Nodes, pairs of nodes as values of some size, and rows of pairs. -/
def rowLayout (size : Int32) : Layout where
  wordSize := .four
  objectHeader := 4
  arrayHeader := 8
  types := [
    ⟨"", "Node", false, false, none, 8, [⟨"next", 0, 0, false, none⟩], some 1⟩,
    ⟨"", "Pair", true, false, none, size,
      [⟨"first", 0, 0, false, none⟩, ⟨"second", 0, 4, false, none⟩], none⟩,
    ⟨"", "Row", false, true, some 1, 0, [], some 3⟩]
  sound := rfl

/-- The header of a row of 21 pairs, and three words. -/
def rowMemory : Store :=
  #[3, 0, 0, 0, 21, 0, 0, 0, 16, 0, 0, 0, 0, 0, 0, 0, 16, 0, 0, 0]

/-- A row at 16 whose pairs have a size. -/
def rowHeap (size : Int32) : Heap where
  snapshot := ⟨.four, #[⟨.ofNat .four 16, .whole rowMemory, false⟩]⟩
  format := FixedHeader.format ⟨.four, 0, 4, (rowLayout size).typeWords⟩
  offsets := .fresh (rowLayout size) (Ruleset.bind (rowLayout size) [] {}).1

/-- The memory of the row ends between the nodes of its second pair. -/
theorem pointers_of_array_row :
    (rowHeap 8).HasForwardPlaces 2 ∧
      ∃ ps, ((rowHeap 8).pointers (.ofNat .four 16) 2).1 = .ok ps ∧
        ps.map (fun p => (p.slot.field, p.position, p.value.value)) =
          [(some 0, 8, 16), (some 1, 12, 0), (some 0, 16, 16)] := by
  have hForward : (rowHeap 8).HasForwardPlaces 2 := ⟨by decide, by decide, by decide⟩
  have hView : (rowHeap 8).snapshot.viewAt? (.ofNat .four 16) = some (.whole rowMemory) := by cbv
  obtain ⟨hPointers, -, -⟩ := pointers_of_array (by decide) rfl hForward hView (by decide) rfl
  exact ⟨hForward, _, hPointers, by cbv⟩

/-! ## A row of serial numbers -/

/-- Entries with a serial number of eight bytes, as values, and rows of entries, in a process with words
of four. -/
def ledgerLayout : Layout where
  wordSize := .four
  objectHeader := 4
  arrayHeader := 8
  types := [
    ⟨"", "Long", true, false, none, 8, [], none⟩,
    ⟨"", "Entry", true, false, none, 8, [⟨"serial", 0, 0, false, none⟩], none⟩,
    ⟨"", "Ledger", false, true, some 1, 0, [], some 3⟩]
  sound := rfl

/-- A rule with a condition on the serial numbers. -/
def ledgerRule : Rule where
  spec := ⟨"Entry", none, .exact "Entry"⟩
  kind := .tagIf ["set"] false
  path := ⟨[.field "serial"]⟩
  location := ⟨"ledger.rcl", 1⟩
  group := anonymousGroup

/-- The header of a ledger of one entry, whose serial number is 2 ^ 32. -/
def ledgerMemory : Store :=
  #[3, 0, 0, 0, 1, 0, 0, 0, 0, 0, 0, 0, 1, 0, 0, 0]

/-- A ledger at 16. -/
def ledgerHeap : Heap where
  snapshot := ⟨.four, #[⟨.ofNat .four 16, .whole ledgerMemory, false⟩]⟩
  format := FixedHeader.format ⟨.four, 0, 4, ledgerLayout.typeWords⟩
  offsets := .fresh ledgerLayout (Ruleset.bind ledgerLayout [ledgerRule] {}).1

/-- The pointer of the ledger holds zero, and at its place stands a number that is not: a word has room
for its low bytes only. -/
theorem pointer_of_ledger_ne_stored :
    ledgerHeap.layout.isArray 2 = true ∧ ledgerHeap.HasForwardPlaces 2 ∧
      ledgerHeap.snapshot.viewAt? (.ofNat .four 16) = some (.whole ledgerMemory) ∧
      ledgerHeap.format.arrayLength (.whole ledgerMemory) 2 = .ok 1 ∧
      ∃ slot p, (ledgerHeap.slots 2).1 = [slot] ∧ ledgerHeap.slotWidth slot = 8 ∧
        (ledgerHeap.pointers (.ofNat .four 16) 2).1 = .ok [p] ∧ p.position = 8 ∧
        (View.whole ledgerMemory).read 8 8 = .ok [0, 0, 0, 0, 1, 0, 0, 0] ∧
        p.value.value = 0 ∧ littleEndian [0, 0, 0, 0, 1, 0, 0, 0] = 2 ^ 32 :=
  ⟨rfl, ⟨by decide, by decide, by decide⟩, by cbv, rfl, _, _, rfl, by cbv, by cbv, rfl, by cbv, by cbv,
    by decide⟩

/-! ## How many places are read -/

/-- What is put in front of each list is counted apart from the lists. -/
theorem countP_flatMap_cons {α β : Type} (p : β → Bool) (f : α → β) (g : α → List β) (xs : List α) :
    (xs.flatMap fun x => f x :: g x).countP p =
      xs.countP (fun x => p (f x)) + (xs.flatMap g).countP p := by
  induction xs with
  | nil => rfl
  | cons x xs ih =>
    rw [List.flatMap_cons, List.flatMap_cons, List.countP_append, List.countP_append,
      List.countP_cons, List.countP_cons, ih]
    omega

/-- A slot lies in different places in different elements, also where its places wrap. -/
theorem eq_of_placeIn_eq {slot : OffsetSlot} {start other : Nat} (hStart : start < Numeral.limit64)
    (hOther : other < Numeral.limit64) (hSame : placeIn start slot = placeIn other slot) :
    start = other :=
  Nat.ModEq.eq_of_lt_of_lt (Nat.ModEq.add_right_cancel' (wrap64 slot.value) hSame) hStart hOther

section

variable (view : View) {starts : List Nat} (hNodup : starts.Nodup)
  (hLess : ∀ start ∈ starts, start < Numeral.limit64)

include hNodup hLess

/-- A slot lies in the view at no more elements than the view has bytes. -/
theorem countP_liesIn_le (slot : OffsetSlot) :
    starts.countP (fun start => h.liesIn view ⟨slot, placeIn start slot⟩) ≤ view.size := by
  rw [List.countP_eq_length_filter, ← List.length_map (placeIn · slot)]
  refine length_le_of_nodup_of_lt (List.Nodup.map_on ?_ (hNodup.filter _)) ?_
  · intro start hStart other hOther hSame
    exact eq_of_placeIn_eq (hLess start (List.mem_of_mem_filter hStart))
      (hLess other (List.mem_of_mem_filter hOther)) hSame
  · rw [List.forall_mem_map]
    intro start hStart
    have hLies := liesIn_iff.mp (List.mem_filter.mp hStart).2
    have hWidth := h.slotWidth_pos slot
    dsimp only at hLies
    omega

/-- No more places lie in the view than it has bytes for each of the slots. -/
theorem countP_placesAt_le (slots : List OffsetSlot) :
    (starts.flatMap fun start => placesAt start slots).countP (h.liesIn view) ≤
      slots.length * view.size := by
  induction slots with
  | nil => simp [placesAt]
  | cons slot slots ih =>
    calc (starts.flatMap fun start => placesAt start (slot :: slots)).countP (h.liesIn view)
        = starts.countP (fun start => h.liesIn view ⟨slot, placeIn start slot⟩) +
            (starts.flatMap fun start => placesAt start slots).countP (h.liesIn view) :=
          countP_flatMap_cons ..
      _ ≤ view.size + slots.length * view.size :=
          Nat.add_le_add (countP_liesIn_le view hNodup hLess slot) ih
      _ = (slot :: slots).length * view.size := by
          rw [List.length_cons, Nat.succ_mul, Nat.add_comm]

theorem length_takeWhile_placesAt_le (slots : List OffsetSlot) :
    ((starts.flatMap fun start => placesAt start slots).takeWhile (h.liesIn view)).length ≤
      slots.length * view.size := by
  have hLies : ∀ place ∈ (starts.flatMap fun start => placesAt start slots).takeWhile
      (h.liesIn view), h.liesIn view place = true := fun _ hPlace => List.mem_takeWhile_imp hPlace
  rw [← List.countP_eq_length.mpr hLies]
  exact Nat.le_trans (List.takeWhile_sublist _).countP_le (countP_placesAt_le view hNodup hLess slots)

end

/-- Elements begin below the numbers that do not fit. -/
theorem lt_of_mem_startsFrom {first stride index count start : Nat}
    (hStart : start ∈ startsFrom first stride index count) : start < Numeral.limit64 := by
  have hFits := List.mem_takeWhile_imp hStart
  exact of_decide_eq_true hFits

/-- Elements with a size begin at different places. -/
theorem nodup_startsFrom (first : Nat) {stride : Nat} (hStride : stride ≠ 0) (index count : Nat) :
    (startsFrom first stride index count).Nodup := by
  refine List.Nodup.sublist (List.takeWhile_sublist _) (List.Nodup.map ?_ List.nodup_range')
  intro i j hSame
  exact Nat.eq_of_mul_eq_mul_right (Nat.pos_of_ne_zero hStride) (Nat.add_right_cancel hSame)

/-- Elements without a size begin all at one place. -/
theorem startsFrom_zero {first : Nat} (hFirst : first < Numeral.limit64) (index count : Nat) :
    startsFrom first 0 index count = List.replicate count first := by
  rw [startsFrom]
  simp only [Nat.mul_zero, Nat.zero_add, List.map_const', List.length_range']
  rw [List.takeWhile_eq_self_iff]
  intro start hStart
  rw [List.eq_of_mem_replicate hStart]
  exact decide_eq_true hFirst

/-- Elements in one place that lie in the view are read as often as there are elements. -/
theorem takeWhile_placesFrom_of_isWhole {view : View} {slots : List OffsetSlot} {first : Nat}
    (hFirst : first < Numeral.limit64) (hWhole : h.IsWhole view slots first) (count : Nat) :
    ((placesFrom slots first 0 0 count).takeWhile (h.liesIn view)).length = slots.length * count := by
  rw [placesFrom, startsFrom_zero hFirst, List.takeWhile_eq_self_iff.mpr]
  · simp [List.length_flatMap, placesAt, Nat.mul_comm]
  · intro place hPlace
    obtain ⟨start, hStart, hHere⟩ := List.mem_flatMap.mp hPlace
    rw [List.eq_of_mem_replicate hStart] at hHere
    exact List.all_eq_true.mp (all_placesAt_iff.mpr hWhole) place hHere

/-- Elements in one place that do not lie in the view end within the first. -/
theorem length_takeWhile_placesFrom_le_of_not_isWhole {view : View} {slots : List OffsetSlot}
    {first : Nat} (hFirst : first < Numeral.limit64) (hCut : ¬h.IsWhole view slots first) (count : Nat) :
    ((placesFrom slots first 0 0 count).takeWhile (h.liesIn view)).length ≤
      slots.length * view.size := by
  have hAll : (placesAt first slots).all (h.liesIn view) = false :=
    Bool.eq_false_of_not_eq_true (mt all_placesAt_iff.mp hCut)
  cases count with
  | zero => exact Nat.zero_le _
  | succ count =>
    rw [placesFrom_succ, Nat.mul_zero, Nat.zero_add, if_pos hFirst,
      takeWhile_append_of_all_eq_false hAll]
    have hOne := length_takeWhile_placesAt_le (h := h) view (List.nodup_singleton first)
      (List.forall_mem_singleton.mpr hFirst) slots
    rwa [List.flatMap_singleton] at hOne

/-- All elements of an array lie in one place, the slots in this place lie in the view, and the length
word counts more elements than the view has bytes. -/
structure PilesUp (h : Heap) (view : View) (t length : Nat) : Prop where
  stride : wrap64 (h.layout.elementSize t) = 0
  slots : (h.slots t).1 ≠ []
  inside : h.IsWhole view (h.slots t).1 (wrap64 h.layout.arrayHeader)
  length : view.size < length

/-- **Arrays yield as much as their memory holds, but for elements without a size.** An array yields at
most one pointer for each slot and each byte of its memory exactly when its elements do not pile up in
one place. When they do, it yields as many as its length word says. -/
theorem length_pointers_le_iff (ht : t < h.layout.count) (hArray : h.layout.isArray t = true)
    (hView : h.snapshot.viewAt? address = some view)
    (hLength : h.format.arrayLength view t = .ok length) :
    ∃ ps, (h.pointers address t).1 = .ok ps ∧
      (ps.length ≤ (h.slots t).1.length * view.size ↔ ¬h.PilesUp view t length) ∧
      (h.PilesUp view t length → ps.length = (h.slots t).1.length * length) := by
  refine ⟨_, pointers_of_isArray ht hArray hView hLength, ?_⟩
  rw [List.length_map]
  -- unless elements pile up, it is enough that there are not too many
  have hApart {n : Nat} (hNot : ¬h.PilesUp view t length)
      (hLess : n ≤ (h.slots t).1.length * view.size) :
      (n ≤ (h.slots t).1.length * view.size ↔ ¬h.PilesUp view t length) ∧
        (h.PilesUp view t length → n = (h.slots t).1.length * length) :=
    ⟨iff_of_true hLess hNot, fun hPiles => absurd hPiles hNot⟩
  have hFirst := wrap64_lt h.layout.arrayHeader
  by_cases hStride : wrap64 (h.layout.elementSize t) = 0
  · rw [hStride]
    by_cases hWhole : h.IsWhole view (h.slots t).1 (wrap64 h.layout.arrayHeader)
    · -- every element is read, so only the length word counts
      rw [takeWhile_placesFrom_of_isWhole hFirst hWhole]
      refine ⟨⟨fun hLess hPiles => ?_, fun hNot => ?_⟩, fun _ => rfl⟩
      · have hShort := Nat.le_of_mul_le_mul_left hLess (List.length_pos_iff.mpr hPiles.slots)
        exact absurd hPiles.length (Nat.not_lt_of_le hShort)
      · by_cases hSlots : (h.slots t).1 = []
        · simp [hSlots]
        · have hShort : ¬view.size < length := fun hLong => hNot ⟨hStride, hSlots, hWhole, hLong⟩
          exact Nat.mul_le_mul_left _ (Nat.le_of_not_lt hShort)
    · exact hApart (fun hPiles => hWhole hPiles.inside)
        (length_takeWhile_placesFrom_le_of_not_isWhole hFirst hWhole length)
  · exact hApart (fun hPiles => hStride hPiles.stride)
      (length_takeWhile_placesAt_le view (nodup_startsFrom _ hStride 0 length)
        (fun _ => lt_of_mem_startsFrom) _)

/-- Pairs of eight bytes lie behind each other, and the row has no more than forty pointers. -/
theorem length_pointers_le_iff_row :
    (rowHeap 8).snapshot.viewAt? (.ofNat .four 16) = some (.whole rowMemory) ∧
      ∃ ps, ((rowHeap 8).pointers (.ofNat .four 16) 2).1 = .ok ps ∧ ps.length ≤ 2 * 20 := by
  have hView : (rowHeap 8).snapshot.viewAt? (.ofNat .four 16) = some (.whole rowMemory) := by cbv
  have hLength : (rowHeap 8).format.arrayLength (.whole rowMemory) 2 = .ok 21 := rfl
  obtain ⟨ps, hPointers, hBound, -⟩ := length_pointers_le_iff (by decide) rfl hView hLength
  have hApart : ¬(rowHeap 8).PilesUp (.whole rowMemory) 2 21 := fun hPiles =>
    absurd hPiles.stride (by decide)
  exact ⟨hView, ps, hPointers, hBound.mpr hApart⟩

/-- Pairs without a size pile up: a row of twenty bytes has 42 pointers, two for each pair that its
length word counts. -/
theorem pointers_pile_up :
    Snapshot.Accepts (rowHeap 0).wordSize (rowHeap 0).snapshot.segments.toList ∧
      (rowHeap 0).layout.isArray 2 = true ∧
      (rowHeap 0).snapshot.viewAt? (.ofNat .four 16) = some (.whole rowMemory) ∧
      ∃ ps, ((rowHeap 0).pointers (.ofNat .four 16) 2).1 = .ok ps ∧ ps.length = 42 ∧
        ¬ps.length ≤ ((rowHeap 0).slots 2).1.length * (View.whole rowMemory).size :=
  ⟨⟨_, rfl⟩, rfl, by cbv, _, by cbv, rfl, by decide⟩

end Heap

end RefRules
