import RefRules.Proofs.Segments
import RefRules.Proofs.Views

/-!
# RefRules — looking addresses up

The segment of an address is found by bisection. Segments in order end where the next one starts or
before, so an address behind the start of a segment that does not contain it is in no segment up to
there, and an address before the start is in none from there on. Empty segments, segments that touch
and gaps between them make no difference.

Main results:

* `Segment.bisect_eq_some` — bisection keeps the segment that contains the address between its ends;
* `Snapshot.lookup_agrees` — the segment that is found and the memory from the address on, for every
  address.
-/

namespace RefRules

namespace Segment

/-! ## Segments in order -/

variable {segments : Array Segment} {address : Word}

/-- A segment ends before one at a later place starts. -/
theorem AreInOrder.bound_le (hOrder : AreInOrder segments.toList) {i j : Nat} {a b : Segment}
    (ha : segments[i]? = some a) (hb : segments[j]? = some b) (hij : i < j) :
    a.bound ≤ b.start.value := by
  have hPairs := List.pairwise_iff_getElem.mp hOrder.pairwise_bound_le
  obtain ⟨hi, rfl⟩ := Array.getElem?_eq_some_iff.mp ha
  obtain ⟨hj, rfl⟩ := Array.getElem?_eq_some_iff.mp hb
  exact hPairs i j hi hj hij

/-- Only one place holds a segment that contains the address. -/
theorem AreInOrder.index_eq (hOrder : AreInOrder segments.toList) {i j : Nat} {a b : Segment}
    (ha : segments[i]? = some a) (hb : segments[j]? = some b) (haContains : a.contains address = true)
    (hbContains : b.contains address = true) : i = j := by
  rw [contains_iff] at haContains hbContains
  rcases Nat.lt_trichotomy i j with hLess | hEq | hMore
  · have := hOrder.bound_le ha hb hLess
    omega
  · exact hEq
  · have := hOrder.bound_le hb ha hMore
    omega

/-! ## Bisection -/

/-- The segment that is found is one of the segments. -/
theorem mem_of_bisect {low high : Nat} {segment : Segment}
    (h : bisect segments address low high = some segment) : segment ∈ segments := by
  -- on the search; the segment is the one in the middle at some time
  fun_induction bisect segments address low high with
  | case1 low high hLess mid hNone => cases h
  | case2 low high hLess mid found hFound hBefore ih => exact ih h
  | case3 low high hLess mid found hFound hBehind hContains =>
    rw [Option.some.injEq] at h
    exact h ▸ Array.mem_of_getElem? hFound
  | case4 low high hLess mid found hFound hBehind hContains ih => exact ih h
  | case5 => cases h

/-- The segment that is found contains the address, whatever the order of the segments. -/
theorem contains_of_bisect {low high : Nat} {segment : Segment}
    (h : bisect segments address low high = some segment) : segment.contains address = true := by
  fun_induction bisect segments address low high with
  | case1 low high hLess mid hNone => cases h
  | case2 low high hLess mid found hFound hBefore ih => exact ih h
  | case3 low high hLess mid found hFound hBehind hContains =>
    rw [Option.some.injEq] at h
    exact h ▸ hContains
  | case4 low high hLess mid found hFound hBehind hContains ih => exact ih h
  | case5 => cases h

/-- Bisection between two ends finds the segment between them that contains the address. -/
theorem bisect_eq_some (hOrder : AreInOrder segments.toList) {low high i : Nat} {segment : Segment}
    (hAt : segments[i]? = some segment) (hContains : segment.contains address = true)
    (hLow : low ≤ i) (hHigh : i < high) (hSize : high ≤ segments.size) :
    bisect segments address low high = some segment := by
  have hAddress := contains_iff.mp hContains
  -- on the search; the half that is left out does not hold the segment
  fun_induction bisect segments address low high with
  | case1 low high hLess mid hNone =>
    have hMid : segments.size ≤ mid := Array.getElem?_eq_none_iff.mp hNone
    omega
  | case2 low high hLess mid found hFound hBefore ih =>
    rw [Word.lt_iff] at hBefore
    refine ih hLow ?_ (by omega)
    by_contra hNot
    -- from the middle on, all starts are behind the address
    rcases Nat.eq_or_lt_of_le (Nat.le_of_not_lt hNot) with hEq | hLess
    · rw [hEq, hAt, Option.some.injEq] at hFound
      rw [← hFound] at hBefore
      omega
    · have hBound := hOrder.bound_le hFound hAt hLess
      unfold bound at hBound
      omega
  | case3 low high hLess mid found hFound hBehind hMid =>
    have hEq := hOrder.index_eq hFound hAt hMid hContains
    rw [← hFound, hEq, hAt]
  | case4 low high hLess mid found hFound hBehind hMid ih =>
    rw [Word.lt_iff] at hBehind
    refine ih ?_ hHigh hSize
    by_contra hNot
    -- up to the middle, all segments end before the address
    rcases Nat.eq_or_lt_of_le (Nat.le_of_lt_succ (Nat.lt_of_not_le hNot)) with hEq | hLess
    · rw [← hEq, hAt, Option.some.injEq] at hFound
      exact hMid (hFound ▸ hContains)
    · have hBound := hOrder.bound_le hAt hFound hLess
      omega
  | case5 low high hNot => omega

/-- The segment that is located is the one that contains the address. -/
theorem locate_eq_some_iff (hOrder : AreInOrder segments.toList) {segment : Segment} :
    locate segments address = some segment ↔
      segment ∈ segments ∧ segment.contains address = true := by
  constructor
  · exact fun h => ⟨mem_of_bisect h, contains_of_bisect h⟩
  · rintro ⟨hMem, hContains⟩
    obtain ⟨i, hi, rfl⟩ := Array.mem_iff_getElem.mp hMem
    exact bisect_eq_some hOrder (Array.getElem?_eq_getElem hi) hContains (Nat.zero_le i) hi
      (Nat.le_refl _)

/-- Bisection agrees with looking at one segment after the other. -/
theorem locate_eq_find? (hOrder : AreInOrder segments.toList) :
    locate segments address = segments.toList.find? (·.contains address) := by
  cases hScan : segments.toList.find? (·.contains address) with
  | some segment =>
    have hMem : segment ∈ segments := Array.mem_toList_iff.mp (List.mem_of_find?_eq_some hScan)
    have hContains : segment.contains address = true := by
      simpa using List.find?_some hScan
    exact (locate_eq_some_iff hOrder).mpr ⟨hMem, hContains⟩
  | none =>
    rw [List.find?_eq_none] at hScan
    rw [Option.eq_none_iff_forall_ne_some]
    intro segment hFound
    obtain ⟨hMem, hContains⟩ := (locate_eq_some_iff hOrder).mp hFound
    exact hScan segment (Array.mem_toList_iff.mpr hMem) hContains

end Segment

/-! ## Memory at an address -/

/-- The view shows the bytes of a segment from an address on. -/
structure View.IsFrom (view : View) (segment : Segment) (address : Word) : Prop where
  size : view.size = segment.size - (address.value - segment.start.value)
  byte : ∀ k < view.size, ∃ byte, view.read k 1 = .ok [byte] ∧
    segment.view.read (address.value - segment.start.value + k) 1 = .ok [byte]

namespace Snapshot

variable {s : Snapshot} {address : Word}

/-- The memory at an address in a segment is the rest of the segment. -/
theorem exists_viewAt? {segment : Segment} (h : s.segmentAt? address = some segment) :
    ∃ view, s.viewAt? address = some view ∧ view.IsFrom segment address := by
  obtain ⟨hStart, hStop⟩ := Segment.contains_iff.mp (Segment.contains_of_bisect h)
  have hDistance : address.offsetFrom? segment.start =
      some (address.value - segment.start.value) := if_pos hStart
  unfold Segment.bound Segment.size at hStop
  cases hView : segment.view with
  | invalid =>
    -- a view of nothing has no bytes, so its segment contains nothing
    simp only [hView, View.size] at hStop
    omega
  | window w =>
    have hSize : segment.view.size = w.size := by rw [hView]; rfl
    have hFits : address.value - segment.start.value ≤ w.size := by omega
    have hRest : address.value - segment.start.value +
        (w.size - (address.value - segment.start.value)) ≤ w.size := by omega
    refine ⟨.window (w.part _ _ hRest), ?_, ?_⟩
    · simp only [viewAt?, h, hDistance, hView, Option.bind_eq_bind, Option.bind_some,
        View.tail_window hFits]
      rfl
    · refine ⟨by rw [Segment.size, hSize]; rfl, fun k hk => ?_⟩
      have hInside : k + 1 ≤ w.size - (address.value - segment.start.value) := hk
      have hByteFits : address.value - segment.start.value + k < w.size := by omega
      obtain ⟨byte, hByte⟩ := View.exists_byte_of_read hByteFits
      exact ⟨byte, (View.read_part hRest hInside).trans hByte, by rw [hView, hByte]⟩

/-- The memory at an address is a window: whatever has bytes has a store. -/
theorem exists_window_of_viewAt? {view : View} (h : s.viewAt? address = some view) :
    ∃ w, view = .window w := by
  obtain ⟨segment, -, hRest⟩ := Option.bind_eq_some_iff.mp h
  obtain ⟨distance, -, hTail⟩ := Option.bind_eq_some_iff.mp hRest
  cases hView : segment.view with
  | invalid =>
    rw [hView, View.refuses_invalid.tail] at hTail
    cases hTail
  | window w =>
    rw [hView, toOption_eq_some_iff] at hTail
    by_cases hFits : distance ≤ w.size
    · rw [View.tail_window hFits, Except.ok.injEq] at hTail
      exact ⟨_, hTail.symm⟩
    · rw [View.tail_window_of_lt (Nat.lt_of_not_le hFits)] at hTail
      cases hTail

/-- **Lookup agrees with a scan of all segments.** In a snapshot whose segments are in order, with
gaps, touching or empty, the segment found for an address is the one that contains it, and none is found
when none does. There is memory at the address in just these cases: the rest of the segment, byte by
byte. -/
theorem lookup_agrees (hOrder : Segment.AreInOrder s.segments.toList) (address : Word) :
    (∀ segment, s.segmentAt? address = some segment ↔
      segment ∈ s.segments ∧ segment.contains address = true) ∧
    s.segmentAt? address = s.segments.toList.find? (·.contains address) ∧
    (∀ segment, s.segmentAt? address = some segment →
      ∃ view, s.viewAt? address = some view ∧ view.IsFrom segment address) ∧
    (s.segmentAt? address = none → s.viewAt? address = none) := by
  refine ⟨fun segment => Segment.locate_eq_some_iff hOrder, Segment.locate_eq_find? hOrder,
    fun segment => exists_viewAt?, fun hNone => ?_⟩
  rw [viewAt?, hNone]
  rfl

/-- Four bytes, an empty segment that touches them, and two bytes behind a gap. -/
def gapSnapshot : Snapshot where
  wordSize := .four
  segments := #[⟨.ofNat .four 4096, .whole #[1, 2, 3, 4], false⟩,
    ⟨.ofNat .four 4100, .whole #[], false⟩, ⟨.ofNat .four 4101, .whole #[5, 6], false⟩]

/-- The last byte is found behind the gap, and nothing in the gap. -/
theorem lookup_agrees_gap :
    Segment.AreInOrder gapSnapshot.segments.toList ∧
      (∃ view, gapSnapshot.viewAt? (.ofNat .four 4102) = some view ∧ view.size = 1 ∧
        view.read 0 1 = .ok [6]) ∧
      gapSnapshot.segmentAt? (.ofNat .four 4100) = none := by
  have hOrder : Segment.AreInOrder gapSnapshot.segments.toList := ⟨by decide, by decide⟩
  obtain ⟨hFound, -, hViews, -⟩ := lookup_agrees hOrder (.ofNat .four 4102)
  have hLast := (hFound ⟨.ofNat .four 4101, .whole #[5, 6], false⟩).mpr
    ⟨by simp [gapSnapshot], by decide⟩
  obtain ⟨view, hView, hSize, hBytes⟩ := hViews _ hLast
  have hOne : view.size = 1 := hSize
  obtain ⟨byte, hByte, hSource⟩ := hBytes 0 (by omega)
  have hSix : byte = 6 := by
    have hSame : (.ok [6] : Except MemoryError (List UInt8)) = .ok [byte] := hSource
    simpa using hSame.symm
  refine ⟨hOrder, ⟨view, hView, hOne, hSix ▸ hByte⟩, ?_⟩
  rw [(lookup_agrees hOrder (.ofNat .four 4100)).2.1]
  rfl

end Snapshot

end RefRules
