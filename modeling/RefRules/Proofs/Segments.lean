import Mathlib
import RefRules.Snapshot

/-!
# RefRules — segments of a snapshot

The segments of a snapshot fit the address space, are in the order of their starts and end before
the next one starts. Neighbours decide that no two segments overlap. At the very top of 64-bit
addresses the end of a segment is no 64-bit number any more: there a segment is accepted that starts
at the last address of the segment before it.

Main results:

* `Snapshot.IsSeparated.pairwise_isApart` — segments that end before the next one starts share no
  address;
* `Snapshot.accepts_iff` — the lists of segments that make a snapshot, and whether they share addresses.
-/

namespace RefRules

namespace Segment

/-! ## Ranges -/

/-- The number after the last address of the segment. Other than `stop` it does not wrap. -/
def bound (s : Segment) : Nat :=
  s.start.value + s.size

/-- A segment contains the addresses from its start up to its bound. -/
theorem contains_iff {s : Segment} {address : Word} :
    s.contains address = true ↔ s.start.value ≤ address.value ∧ address.value < s.bound := by
  simp only [contains, bound, decide_eq_true_eq]
  omega

/-- No address lies in both segments. -/
def IsApart (a b : Segment) : Prop :=
  ∀ address : Word, ¬(a.contains address = true ∧ b.contains address = true)

/-- What ends before something else starts shares no address with it. -/
theorem isApart_of_le {a b : Segment} (h : a.bound ≤ b.start.value) : a.IsApart b := by
  rintro address ⟨ha, hb⟩
  rw [contains_iff] at ha hb
  omega

/-- The starts of the segments increase, and each ends where the next one starts or before. -/
structure AreInOrder (segments : List Segment) : Prop where
  increasing : segments.Pairwise fun a b => a.start.value < b.start.value
  neighbours : segments.IsChain fun a b => a.bound ≤ b.start.value

/-- In order, a segment ends before any later one starts, neighbours or not. -/
theorem AreInOrder.pairwise_bound_le {segments : List Segment} (h : AreInOrder segments) :
    segments.Pairwise fun a b => a.bound ≤ b.start.value := by
  -- no start is behind its bound, so the relation between neighbours carries on
  let _ : Trans (fun a b : Segment => a.bound ≤ b.start.value)
      (fun a b : Segment => a.bound ≤ b.start.value)
      (fun a b : Segment => a.bound ≤ b.start.value) :=
    ⟨fun {_ _ _} hab hbc => Nat.le_trans hab (Nat.le_trans (Nat.le_add_right ..) hbc)⟩
  exact h.neighbours.pairwise

/-- The first segment reaches the end of 64-bit addresses, the second starts at the last of them. -/
def MeetOnTop (a b : Segment) : Prop :=
  a.bound = Numeral.limit64 ∧ b.start.value = Numeral.limit64 - 1

end Segment

namespace Snapshot

variable {wordSize : WordSize}

/-! ## Checks -/

/-- No segment leaves the address space. -/
theorem overflowError?_eq_none_iff {segments : List Segment} :
    overflowError? wordSize segments = none ↔ ∀ s ∈ segments, s.bound ≤ wordSize.limit := by
  simp only [overflowError?, Option.map_eq_none_iff, List.find?_eq_none, decide_eq_true_eq,
    Nat.not_lt, Segment.bound]

theorem neighbourError?_eq_none_iff {a b : Segment} :
    neighbourError? a b = none ↔
      a.start.value < b.start.value ∧ saturatedStop a.start.value a.size ≤ b.start.value := by
  simp only [neighbourError?, Word.le_iff]
  split
  · next hOrder =>
    simp only [reduceCtorEq, false_iff]
    omega
  · split <;> simp only [reduceCtorEq, false_iff, true_iff] <;> omega

/-- Only neighbours are looked at. -/
theorem orderError?_eq_none_iff {segments : List Segment} :
    orderError? segments = none ↔ segments.IsChain fun a b => neighbourError? a b = none := by
  induction segments with
  | nil => simp [orderError?]
  | cons a rest ih =>
    cases rest with
    | nil => simp [orderError?]
    | cons b rest => rw [orderError?, Option.or_eq_none_iff, ih, List.isChain_cons_cons]

/-- The end that a segment is compared by stops short of its bound at the top of the addresses. -/
theorem saturatedStop_le_iff {a b : Segment} (ha : a.bound ≤ Numeral.limit64)
    (hb : b.start.value < Numeral.limit64) :
    saturatedStop a.start.value a.size ≤ b.start.value ↔
      a.bound ≤ b.start.value ∨ a.MeetOnTop b := by
  show min a.bound (Numeral.limit64 - 1) ≤ b.start.value ↔ _
  unfold Segment.MeetOnTop
  omega

theorem limit_le (wordSize : WordSize) : wordSize.limit ≤ Numeral.limit64 := by
  cases wordSize <;> decide

theorem start_lt (s : Segment) : s.start.value < Numeral.limit64 :=
  Nat.lt_of_lt_of_le s.start.fits (limit_le _)

/-! ## Separated segments -/

/-- The segments fit the address space, their starts increase, and each ends before the next one
starts. -/
structure IsSeparated (wordSize : WordSize) (segments : List Segment) : Prop where
  fits : ∀ s ∈ segments, s.bound ≤ wordSize.limit
  increasing : segments.Pairwise fun a b => a.start.value < b.start.value
  neighbours : segments.IsChain fun a b => a.bound ≤ b.start.value

theorem isSeparated_singleton_iff {a : Segment} :
    IsSeparated wordSize [a] ↔ a.bound ≤ wordSize.limit :=
  ⟨fun h => h.fits a (List.mem_singleton_self a),
    fun h => ⟨by simpa using h, List.pairwise_singleton .., .singleton a⟩⟩

theorem isSeparated_cons_cons_iff {a b : Segment} {rest : List Segment} :
    IsSeparated wordSize (a :: b :: rest) ↔
      a.bound ≤ wordSize.limit ∧ a.start.value < b.start.value ∧ a.bound ≤ b.start.value ∧
        IsSeparated wordSize (b :: rest) := by
  constructor
  · rintro ⟨hFits, hIncreasing, hNeighbours⟩
    rw [List.forall_mem_cons] at hFits
    rw [List.pairwise_cons] at hIncreasing
    rw [List.isChain_cons_cons] at hNeighbours
    exact ⟨hFits.1, hIncreasing.1 b (List.mem_cons_self ..), hNeighbours.1,
      ⟨hFits.2, hIncreasing.2, hNeighbours.2⟩⟩
  · rintro ⟨hFits, hStart, hBound, hRest⟩
    refine ⟨List.forall_mem_cons.mpr ⟨hFits, hRest.fits⟩, List.pairwise_cons.mpr ⟨?_, hRest.increasing⟩,
      List.isChain_cons_cons.mpr ⟨hBound, hRest.neighbours⟩⟩
    -- the start of `b` lies between that of `a` and all later ones
    rw [List.forall_mem_cons]
    refine ⟨hStart, fun c hc => ?_⟩
    have hLater := (List.pairwise_cons.mp hRest.increasing).1 c hc
    exact Nat.lt_trans hStart hLater

theorem IsSeparated.areInOrder {segments : List Segment} (h : IsSeparated wordSize segments) :
    Segment.AreInOrder segments :=
  ⟨h.increasing, h.neighbours⟩

/-- Segments that end before the next one starts share no address, neighbours or not. -/
theorem IsSeparated.pairwise_isApart {segments : List Segment} (h : IsSeparated wordSize segments) :
    segments.Pairwise Segment.IsApart :=
  h.areInOrder.pairwise_bound_le.imp Segment.isApart_of_le

/-! ## Accepted segments -/

/-- The segments make a snapshot. -/
def Accepts (wordSize : WordSize) (segments : List Segment) : Prop :=
  ∃ snapshot, ofSegments wordSize segments = .ok snapshot

theorem accepts_iff_checks {segments : List Segment} :
    Accepts wordSize segments ↔
      overflowError? wordSize segments = none ∧ orderError? segments = none := by
  unfold Accepts ofSegments
  -- the second check is made when the first one finds nothing
  rw [← Option.or_eq_none_iff]
  cases (overflowError? wordSize segments).or (orderError? segments) <;> simp

theorem accepts_singleton_iff {a : Segment} :
    Accepts wordSize [a] ↔ a.bound ≤ wordSize.limit := by
  simp [accepts_iff_checks, overflowError?_eq_none_iff, orderError?_eq_none_iff]

theorem accepts_cons_cons_iff {a b : Segment} {rest : List Segment} :
    Accepts wordSize (a :: b :: rest) ↔
      a.bound ≤ wordSize.limit ∧ a.start.value < b.start.value ∧
        (a.bound ≤ b.start.value ∨ a.MeetOnTop b) ∧ Accepts wordSize (b :: rest) := by
  rw [accepts_iff_checks, accepts_iff_checks, overflowError?_eq_none_iff, orderError?_eq_none_iff,
    overflowError?_eq_none_iff, orderError?_eq_none_iff, List.forall_mem_cons,
    List.isChain_cons_cons, neighbourError?_eq_none_iff]
  constructor
  · rintro ⟨⟨ha, hFits⟩, ⟨hStart, hStop⟩, hOrder⟩
    have hTop := (saturatedStop_le_iff (Nat.le_trans ha (limit_le _)) (start_lt b)).mp hStop
    exact ⟨ha, hStart, hTop, hFits, hOrder⟩
  · rintro ⟨ha, hStart, hTop, hFits, hOrder⟩
    have hStop := (saturatedStop_le_iff (Nat.le_trans ha (limit_le _)) (start_lt b)).mpr hTop
    exact ⟨⟨ha, hFits⟩, ⟨hStart, hStop⟩, hOrder⟩

/-- The last two segments meet on top of the addresses; all segments before end where the next one
starts or earlier. -/
inductive EndsOnTop (wordSize : WordSize) : List Segment → Prop
  | last {a b : Segment} (ha : a.bound ≤ wordSize.limit) (hb : b.bound ≤ wordSize.limit)
      (hStart : a.start.value < b.start.value) (hTop : a.MeetOnTop b) : EndsOnTop wordSize [a, b]
  | cons {a b : Segment} {rest : List Segment} (ha : a.bound ≤ wordSize.limit)
      (hStart : a.start.value < b.start.value) (hBound : a.bound ≤ b.start.value)
      (hRest : EndsOnTop wordSize (b :: rest)) : EndsOnTop wordSize (a :: b :: rest)

/-- Nothing starts behind a segment that starts at the last address. -/
theorem not_accepts_of_last_start {b c : Segment} {rest : List Segment}
    (h : b.start.value = Numeral.limit64 - 1) : ¬Accepts wordSize (b :: c :: rest) := by
  intro hAccepts
  have hStart := (accepts_cons_cons_iff.mp hAccepts).2.1
  have hLast := start_lt c
  omega

theorem accepts_of_isSeparated {segments : List Segment} (h : IsSeparated wordSize segments) :
    Accepts wordSize segments := by
  induction segments with
  | nil => exact ⟨_, rfl⟩
  | cons a rest ih =>
    cases rest with
    | nil => exact accepts_singleton_iff.mpr (isSeparated_singleton_iff.mp h)
    | cons b rest =>
      obtain ⟨hFits, hStart, hBound, hRest⟩ := isSeparated_cons_cons_iff.mp h
      exact accepts_cons_cons_iff.mpr ⟨hFits, hStart, .inl hBound, ih hRest⟩

theorem accepts_of_endsOnTop {segments : List Segment} (h : EndsOnTop wordSize segments) :
    Accepts wordSize segments := by
  induction h with
  | last ha hb hStart hTop =>
    exact accepts_cons_cons_iff.mpr ⟨ha, hStart, .inr hTop, accepts_singleton_iff.mpr hb⟩
  | cons ha hStart hBound _ ih => exact accepts_cons_cons_iff.mpr ⟨ha, hStart, .inl hBound, ih⟩

/-- Accepted segments are separated, but for the last two on top of the addresses. -/
theorem isSeparated_or_endsOnTop {segments : List Segment} (h : Accepts wordSize segments) :
    IsSeparated wordSize segments ∨ EndsOnTop wordSize segments := by
  induction segments with
  | nil => exact .inl ⟨by simp, .nil, .nil⟩
  | cons a rest ih =>
    cases rest with
    | nil => exact .inl (isSeparated_singleton_iff.mpr (accepts_singleton_iff.mp h))
    | cons b rest =>
      obtain ⟨hFits, hStart, hBound | hTop, hRest⟩ := accepts_cons_cons_iff.mp h
      · rcases ih hRest with hSeparated | hEnds
        · exact .inl (isSeparated_cons_cons_iff.mpr ⟨hFits, hStart, hBound, hSeparated⟩)
        · exact .inr (.cons hFits hStart hBound hEnds)
      · -- nothing follows a segment that starts at the last address
        cases rest with
        | nil => exact .inr (.last hFits (accepts_singleton_iff.mp hRest) hStart hTop)
        | cons c rest => exact absurd hRest (not_accepts_of_last_start hTop.2)

theorem not_isSeparated_of_endsOnTop {segments : List Segment}
    (h : EndsOnTop wordSize segments) : ¬IsSeparated wordSize segments := by
  induction h with
  | @last a b _ _ _ hTop =>
    rw [isSeparated_cons_cons_iff]
    rintro ⟨-, -, hBound, -⟩
    have hFirst := hTop.1
    have hLast := start_lt b
    omega
  | cons _ _ _ _ ih => exact fun h => ih (isSeparated_cons_cons_iff.mp h).2.2.2

/-! ## Overlaps -/

/-- The last segment has bytes. -/
def LastHasBytes (segments : List Segment) : Prop :=
  ∀ s ∈ segments.getLast?, 0 < s.size

/-- The starts of accepted segments increase. -/
theorem accepts_increasing {segments : List Segment} (h : Accepts wordSize segments) :
    segments.Pairwise fun a b => a.start.value < b.start.value := by
  induction segments with
  | nil => exact .nil
  | cons a rest ih =>
    cases rest with
    | nil => exact List.pairwise_singleton ..
    | cons b rest =>
      obtain ⟨-, hStart, -, hRest⟩ := accepts_cons_cons_iff.mp h
      have hLater := ih hRest
      refine List.pairwise_cons.mpr ⟨List.forall_mem_cons.mpr ⟨hStart, fun c hc => ?_⟩, hLater⟩
      exact Nat.lt_trans hStart ((List.pairwise_cons.mp hLater).1 c hc)

/-- The last address lies in both of the segments that meet there, if the second has bytes. -/
theorem pairwise_isApart_iff_of_endsOnTop {segments : List Segment}
    (h : EndsOnTop wordSize segments) :
    segments.Pairwise Segment.IsApart ↔ ¬LastHasBytes segments := by
  induction h with
  | @last a b _ _ hStart hTop =>
    obtain ⟨hFirst, hSecond⟩ := hTop
    have hLast : LastHasBytes [a, b] ↔ 0 < b.size := by simp [LastHasBytes]
    rw [hLast, List.pairwise_pair]
    -- the last address is in the first segment, and in the second unless that is empty
    constructor
    · intro hApart hBytes
      have hMax : (Word.ofNat .eight (Numeral.limit64 - 1)).value = Numeral.limit64 - 1 := by decide
      refine hApart (.ofNat .eight (Numeral.limit64 - 1)) ⟨?_, ?_⟩
      · rw [Segment.contains_iff, hMax]
        omega
      · rw [Segment.contains_iff, hMax]
        unfold Segment.bound
        omega
    · rintro hEmpty address ⟨-, hb⟩
      rw [Segment.contains_iff] at hb
      unfold Segment.bound at hb
      omega
  | @cons a b rest ha hStart hBound hRest ih =>
    have hLast : LastHasBytes (a :: b :: rest) ↔ LastHasBytes (b :: rest) := by
      simp [LastHasBytes, List.getLast?_cons_cons]
    rw [hLast, ← ih, List.pairwise_cons, and_iff_right]
    -- the first segment ends before any later one starts
    rw [List.forall_mem_cons]
    refine ⟨Segment.isApart_of_le hBound, fun c hc => Segment.isApart_of_le ?_⟩
    have hIncreasing := accepts_increasing (accepts_of_endsOnTop hRest)
    have hLater := (List.pairwise_cons.mp hIncreasing).1 c hc
    omega

/-- **Which segments make a snapshot.** Exactly those that are separated, except for lists whose last
two segments meet on top of the 64-bit addresses: these are accepted too. Separated segments share no
address, neighbours or not, and so do all accepted segments, except for those that end on top with a
segment that has bytes. -/
theorem accepts_iff (wordSize : WordSize) (segments : List Segment) :
    (Accepts wordSize segments ↔ IsSeparated wordSize segments ∨ EndsOnTop wordSize segments) ∧
      ((Accepts wordSize segments ↔ IsSeparated wordSize segments) ↔
        ¬EndsOnTop wordSize segments) ∧
      (Accepts wordSize segments → (segments.Pairwise Segment.IsApart ↔
        ¬(EndsOnTop wordSize segments ∧ LastHasBytes segments))) := by
  have hCases : Accepts wordSize segments ↔
      IsSeparated wordSize segments ∨ EndsOnTop wordSize segments :=
    ⟨isSeparated_or_endsOnTop, fun h => h.elim accepts_of_isSeparated accepts_of_endsOnTop⟩
  refine ⟨hCases, ⟨fun hClaim hEnds => ?_, fun hNot => ?_⟩, fun hAccepts => ?_⟩
  · -- what ends on top is accepted, but it is not separated
    exact not_isSeparated_of_endsOnTop hEnds (hClaim.mp (accepts_of_endsOnTop hEnds))
  · rw [hCases, or_iff_left hNot]
  · rcases hCases.mp hAccepts with hSeparated | hEnds
    · have hNot : ¬EndsOnTop wordSize segments :=
        fun hEnds => not_isSeparated_of_endsOnTop hEnds hSeparated
      simp only [hSeparated.pairwise_isApart, hNot, false_and, not_false_eq_true]
    · simp only [hEnds, true_and, pairwise_isApart_iff_of_endsOnTop hEnds]

/-- Sixteen bytes up to the end of the 64-bit addresses, and one byte at the last address. -/
def topSegments : List Segment :=
  [⟨.ofNat .eight 18446744073709551600, .whole (Array.replicate 16 0), false⟩,
    ⟨.ofNat .eight 18446744073709551615, .whole #[0], false⟩]

/-- They make a snapshot although both contain the last address. -/
theorem accepts_overlap_on_top :
    Accepts .eight topSegments ∧ ¬IsSeparated .eight topSegments ∧
      ¬topSegments.Pairwise Segment.IsApart := by
  refine ⟨⟨_, rfl⟩, ?_, ?_⟩
  · rintro ⟨-, -, hNeighbours⟩
    exact absurd (List.isChain_cons_cons.mp hNeighbours).1 (by decide)
  · intro hApart
    rw [topSegments, List.pairwise_cons, List.forall_mem_cons] at hApart
    exact hApart.1.1 (.ofNat .eight 18446744073709551615) (by decide)

end Snapshot

end RefRules
