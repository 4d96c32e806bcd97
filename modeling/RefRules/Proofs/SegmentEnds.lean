import RefRules.Proofs.Lookup

/-!
# RefRules — where segments end

A segment is shown as the range from its start to its stop, and an address is looked up by its
distance from the start. The stop is a word of the width of the start, so that it wraps where the
segment reaches the end of the addresses of that width: there it is shown with a stop that is not
behind its addresses. Everywhere else the range that is shown is the one that lookup goes by.

Main results:

* `Segment.isAsShown_iff` — a segment is as it is shown where its stop does not wrap;
* `Snapshot.isAsShown_of_ofSegments` — the segments of a snapshot that are, and how they are found.
-/

namespace RefRules

namespace Segment

variable {s : Segment}

/-- The segment contains the addresses from its start up to its stop, as it is shown. -/
def IsAsShown (s : Segment) : Prop :=
  ∀ address : Word, s.contains address = true ↔ s.start ≤ address ∧ address < s.stop

theorem value_stop (s : Segment) : s.stop.value = s.bound % s.start.size.limit := rfl

theorem isAsShown_of_bound_lt (h : s.bound < s.start.size.limit) : s.IsAsShown := by
  intro address
  rw [contains_iff, Word.le_iff, Word.lt_iff, value_stop, Nat.mod_eq_of_lt h]

/-- If the stop wraps, then it is not behind the last address of the segment. -/
theorem not_isAsShown_of_limit_le (hLimit : s.start.size.limit ≤ s.bound)
    (hBound : s.bound ≤ Numeral.limit64) : ¬s.IsAsShown := by
  intro hShown
  have hStart := s.start.fits
  have hStop : s.stop.value < s.start.size.limit := s.stop.fits
  have hLast : (Word.ofNat .eight (s.bound - 1)).value = s.bound - 1 :=
    Word.value_ofNat_of_lt (show s.bound - 1 < Numeral.limit64 by omega)
  -- the last address is in the segment, and larger than any word that its stop can be
  have hContains : s.contains (.ofNat .eight (s.bound - 1)) = true := by
    rw [contains_iff, hLast]
    omega
  have hBelow := ((hShown _).mp hContains).2
  rw [Word.lt_iff, hLast] at hBelow
  omega

/-- A segment is as it is shown if and only if the number after its last address is a word of the width
of its start. -/
theorem isAsShown_iff (hBound : s.bound ≤ Numeral.limit64) :
    s.IsAsShown ↔ s.bound < s.start.size.limit := by
  refine ⟨fun hShown => ?_, isAsShown_of_bound_lt⟩
  by_contra hNot
  exact not_isAsShown_of_limit_le (Nat.le_of_not_lt hNot) hBound hShown

end Segment

namespace Snapshot

variable {wordSize : WordSize} {segments : List Segment} {snapshot : Snapshot}

/-- Where segments meet on top of the addresses, the stop of the first one wraps. -/
theorem exists_limit_le_of_endsOnTop (h : EndsOnTop wordSize segments) :
    ∃ s ∈ segments, s.start.size.limit ≤ s.bound := by
  induction h with
  | @last a b _ _ _ hTop =>
    exact ⟨a, List.mem_cons_self, hTop.1 ▸ limit_le a.start.size⟩
  | cons _ _ _ _ ih =>
    obtain ⟨s, hMem, hLimit⟩ := ih
    exact ⟨s, List.mem_cons_of_mem _ hMem, hLimit⟩

theorem eq_of_ofSegments (h : ofSegments wordSize segments = .ok snapshot) :
    snapshot = ⟨wordSize, segments.toArray⟩ := by
  unfold ofSegments at h
  split at h
  · cases h
  · exact (Except.ok.inj h).symm

/-- **Segments as they are shown.** A segment of a snapshot contains the addresses from its start up to
its stop if and only if the stop does not wrap; if the start has the width of the snapshot, that is if
the segment does not end with the last address. Where no stop wraps, the segment that is found for an
address is the one whose range has the address. -/
theorem isAsShown_of_ofSegments (h : ofSegments wordSize segments = .ok snapshot) :
    (∀ s ∈ segments, s.IsAsShown ↔ s.bound < s.start.size.limit) ∧
      (∀ s ∈ segments, s.start.size = wordSize → (s.IsAsShown ↔ s.bound ≠ wordSize.limit)) ∧
      ((∀ s ∈ segments, s.bound < s.start.size.limit) → ∀ address s,
        snapshot.segmentAt? address = some s ↔
          s ∈ segments ∧ s.start ≤ address ∧ address < s.stop) := by
  have hAccepts : Accepts wordSize segments := ⟨snapshot, h⟩
  have hFits := overflowError?_eq_none_iff.mp (accepts_iff_checks.mp hAccepts).1
  have hIff : ∀ s ∈ segments, s.IsAsShown ↔ s.bound < s.start.size.limit := fun s hs =>
    Segment.isAsShown_iff (Nat.le_trans (hFits s hs) (limit_le wordSize))
  refine ⟨hIff, fun s hs hSize => ?_, fun hBelow address s => ?_⟩
  · have hBound := hFits s hs
    rw [hIff s hs, hSize]
    omega
  · -- then the segments do not meet on top, so lookup finds what contains the address
    have hSeparated : IsSeparated wordSize segments := by
      refine (isSeparated_or_endsOnTop hAccepts).resolve_right fun hEnds => ?_
      obtain ⟨top, hMem, hLimit⟩ := exists_limit_le_of_endsOnTop hEnds
      exact Nat.not_lt_of_le hLimit (hBelow top hMem)
    rw [eq_of_ofSegments h, segmentAt?, Segment.locate_eq_some_iff hSeparated.areInOrder,
      List.mem_toArray]
    refine and_congr_right fun hMem => ?_
    exact Segment.isAsShown_of_bound_lt (hBelow s hMem) address

/-- Bytes up to the last address of four bytes, which is left out. -/
def belowTop : Segment :=
  ⟨.ofNat .four 4294967280, .whole (Array.replicate 15 0), false⟩

theorem isAsShown_belowTop :
    ofSegments .four [belowTop] = .ok ⟨.four, #[belowTop]⟩ ∧ belowTop.IsAsShown ∧
      segmentAt? ⟨.four, #[belowTop]⟩ (.ofNat .four 4294967294) = some belowTop := by
  have hSnapshot : ofSegments .four [belowTop] = .ok ⟨.four, #[belowTop]⟩ := rfl
  obtain ⟨hIff, -, hFound⟩ := isAsShown_of_ofSegments hSnapshot
  have hBelow : ∀ s ∈ [belowTop], s.bound < s.start.size.limit :=
    List.forall_mem_singleton.mpr (by decide)
  have hMem : belowTop ∈ [belowTop] := List.mem_singleton_self _
  exact ⟨hSnapshot, (hIff belowTop hMem).mpr (hBelow belowTop hMem),
    (hFound hBelow _ _).mpr ⟨hMem, by decide, by decide⟩⟩

/-- One byte more, the last address with it. -/
def onTop : Segment :=
  ⟨.ofNat .four 4294967280, .whole (Array.replicate 16 0), false⟩

/-- It is shown with a stop of zero, although all its addresses are found in it. -/
theorem not_isAsShown_onTop :
    ofSegments .four [onTop] = .ok ⟨.four, #[onTop]⟩ ∧
      onTop.text = "[0xfffffff0, 0x00000000) heap (16 bytes)" ∧
      (segmentAt? ⟨.four, #[onTop]⟩ onTop.start).map (·.start) = some onTop.start ∧
      onTop.contains onTop.start = true ∧ ¬onTop.start < onTop.stop ∧ ¬onTop.IsAsShown := by
  refine ⟨rfl, by decide +kernel, by decide +kernel, by decide, by decide, fun hShown => ?_⟩
  have hBelow := ((hShown onTop.start).mp (by decide)).2
  exact absurd hBelow (by decide)

end Snapshot

end RefRules
