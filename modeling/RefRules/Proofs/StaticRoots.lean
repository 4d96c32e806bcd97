import RefRules.Proofs.Dynamic
import RefRules.Proofs.Lookup
import RefRules.Proofs.Tables

/-!
# RefRules — roots in static fields

A static field has its storage outside of the heap, so a selector that begins at one could find the
same from everywhere. The walk itself does. But before its first hop is looked at, a place to begin is
taken in the object at the anchor, and where the memory there ends too early nothing is found; only an
anchor outside of the snapshot is let through.

Main results:

* `Heap.walk_of_isStatic` — the walk from a static field does not depend on where it begins;
* `Heap.finds_of_isStatic` — what is found from an anchor: everything, or for want of memory that is
  not read, nothing.
-/

namespace RefRules

/-- A view has a tail from every position up to its end. -/
theorem View.isSome_tail_window (w : Window) (start : Nat) :
    ((View.window w).tail start).toOption.isSome = decide (start ≤ w.size) := by
  by_cases hStart : start ≤ w.size
  · simp [tail_window hStart, hStart, Except.toOption]
  · simp [tail_window_of_lt (Nat.lt_of_not_le hStart), hStart, Except.toOption]

namespace Heap

variable {h : Heap}

/-! ## Places to begin -/

/-- The memory at the anchor, if there is any, goes as far as `start`. -/
def Reaches (h : Heap) (anchor : Word) (start : Nat) : Prop :=
  ∀ view, h.snapshot.viewAt? anchor = some view → start ≤ view.size

instance (h : Heap) (anchor : Word) (start : Nat) : Decidable (h.Reaches anchor start) :=
  match hView : h.snapshot.viewAt? anchor with
  | none => isTrue fun view hSome => by simp [hView] at hSome
  | some view =>
    decidable_of_iff (start ≤ view.size) (by simp [Reaches, hView])

/-- The struct that would hold field `f` of type `t` at the place of a pointer begins in the object at
the anchor. -/
def BeginsAt (h : Heap) (anchor : Word) (p : Pointer) (t f : Nat) : Prop :=
  (h.layout.fieldOffset t f true).toNatClampNeg ≤ p.position ∧
    h.Reaches anchor (p.position - (h.layout.fieldOffset t f true).toNatClampNeg)

instance (h : Heap) (anchor : Word) (p : Pointer) (t f : Nat) : Decidable (h.BeginsAt anchor p t f) :=
  inferInstanceAs (Decidable (_ ∧ _))

/-- An object of a reference type begins at its anchor. -/
theorem reaches_objectStart {t : Nat} (hReference : h.layout.isValue t = false) (anchor : Word) :
    h.Reaches anchor (h.objectStart t) := by
  intro view _
  simp [objectStart, hReference]

/-- With a static field ahead, a walk begins wherever the memory at the anchor goes as far, or there is
none. -/
theorem isSome_rootView? {t f : Nat} (hStatic : h.layout.isStatic t f = true) (anchor : Word)
    (start : Nat) : (h.rootView? anchor start (.field t f)).isSome = decide (h.Reaches anchor start) := by
  cases hView : h.snapshot.viewAt? anchor with
  | none =>
    have hFree : h.Reaches anchor start := fun view hSome => by simp [hView] at hSome
    simp [rootView?, hView, isStaticHop, hStatic, hFree]
  | some view =>
    obtain ⟨w, rfl⟩ := Snapshot.exists_window_of_viewAt? hView
    have hReaches : h.Reaches anchor start ↔ start ≤ w.size := by
      simp [Reaches, hView, View.size]
    simp only [rootView?, hView, View.isSome_tail_window, hReaches]

/-! ## Walks from static fields -/

/-- The pointers at the end of the walk of a selector that begins nowhere. -/
def staticEnds (h : Heap) (s : Selector) : List Word :=
  match s.anchor? with
  | none => []
  | some first =>
    (h.walk s.walkHops ⟨.invalid, first.type, !h.layout.isValue first.type⟩).filterMap
      Encounter.found?

/-- A static field leads to its storage from every cursor. -/
theorem hop_of_isStatic {t f : Nat} (hStatic : h.layout.isStatic t f = true) (c : Cursor) :
    h.hop c (.fixed (.field t f)) = h.staticTargets t f := by
  simp only [hop, fieldTargets, hStatic, if_true]

/-- A walk reads its cursor in its first hop only, so from a static field on it does not depend on
it. -/
theorem walk_of_isStatic {t f : Nat} (hStatic : h.layout.isStatic t f = true) {s : Selector}
    (hAnchor : s.anchor? = some (.field t f)) (c c' : Cursor) :
    h.walk s.walkHops c = h.walk s.walkHops c' := by
  obtain ⟨rest, hHops⟩ := Selector.walkHops_of_anchor? hAnchor
  rw [hHops, walk, walk, hop_of_isStatic hStatic, hop_of_isStatic hStatic]

/-- From a place in the object at an anchor a selector that begins at a static field finds all that
there is to find, or nothing when the object ends before that place. -/
theorem ends_walkAt {t f : Nat} (hStatic : h.layout.isStatic t f = true) {s : Selector}
    (hAnchor : s.anchor? = some (.field t f)) (anchor : Word) (start : Nat) :
    (h.walkAt anchor start s).filterMap Encounter.found? =
      if h.Reaches anchor start then h.staticEnds s else [] := by
  have hSome := isSome_rootView? hStatic anchor start
  simp only [walkAt, hAnchor, staticEnds]
  cases hView : h.rootView? anchor start (.field t f) with
  | none =>
    have hShort : ¬h.Reaches anchor start := by simpa [hView] using hSome
    rw [if_neg hShort]
    rfl
  | some view =>
    have hFar : h.Reaches anchor start := by simpa [hView] using hSome
    rw [if_pos hFar]
    exact congrArg _ (walk_of_isStatic hStatic hAnchor _ _)

theorem resolve_of_isStatic {t f : Nat} (ht : t < h.layout.count)
    (hStatic : h.layout.isStatic t f = true) {s : Selector} (hAnchor : s.anchor? = some (.field t f))
    (anchor : Word) :
    h.resolve anchor s =
      .ok (if h.Reaches anchor (h.objectStart t) then h.staticEnds s else []) := by
  rw [← ends_walkAt hStatic hAnchor]
  simp only [resolve, hAnchor]
  exact if_pos ht

theorem resolveFrom_of_isStatic {t f : Nat} (hStatic : h.layout.isStatic t f = true) {s : Selector}
    (hAnchor : s.anchor? = some (.field t f)) (anchor : Word) (p : Pointer) :
    h.resolveFrom anchor p s = if h.BeginsAt anchor p t f then h.staticEnds s else [] := by
  simp only [resolveFrom, walkFrom, hAnchor]
  by_cases hBehind : (h.layout.fieldOffset t f true).toNatClampNeg ≤ p.position
  · rw [if_pos hBehind, ends_walkAt hStatic hAnchor]
    simp only [BeginsAt, hBehind, true_and]
  · have hBefore : ¬h.BeginsAt anchor p t f := fun hBegins => hBehind hBegins.1
    rw [if_neg hBehind, if_neg hBefore]
    rfl

end Heap

/-! ## Slots of static fields -/

namespace Heap

variable {h : Heap}

/-- The selectors of field `f` of type `t` find the same from every anchor and from every pointer that
names the field, whatever its position. -/
def FindsTheSame (h : Heap) (t f : Nat) : Prop :=
  ∃ ends : Selector → List Word,
    (∀ s ∈ h.ruleset.selectors ⟨t, some f⟩, ∀ anchor, h.resolve anchor s = .ok (ends s)) ∧
      ∀ anchor p, p.slot = ⟨t, some f⟩ → h.reached anchor p = h.reachedVia anchor p.slot ends

/-- **Static roots are found, unless the memory at the anchor ends before a place that is not read.**
Each selector that hangs on a static field has one list of pointers at its ends. From an anchor it
resolves to this list, when there is no memory or the memory goes as far as an object of the type would
begin, as it does for every reference type. From a pointer that names the field each selector finds its
list, when the struct that would have the field at the pointer's position begins in the object at the
anchor. Otherwise nothing is found. -/
theorem finds_of_isStatic (hBound : h.ruleset.IsBoundOn h.layout) {t f : Nat}
    (hStatic : h.layout.isStatic t f = true) (anchor : Word) :
    (∀ s ∈ h.ruleset.selectors ⟨t, some f⟩,
      h.resolve anchor s =
        .ok (if h.Reaches anchor (h.objectStart t) then h.staticEnds s else [])) ∧
    (h.layout.isValue t = false → h.Reaches anchor (h.objectStart t)) ∧
    ∀ p : Pointer, p.slot = ⟨t, some f⟩ →
      h.reached anchor p =
        if h.BeginsAt anchor p t f then h.reachedVia anchor p.slot h.staticEnds else {} := by
  refine ⟨?_, fun hReference => reaches_objectStart hReference anchor, ?_⟩
  · -- the type of a selector that is bound is one of the table
    intro s hs
    have ht : t < h.layout.count := Layout.lt_count_of_lt_fields (hBound.isAnchor hs).1
    exact resolve_of_isStatic ht hStatic (hBound.anchor hs) anchor
  · -- the position of the pointer decides for all selectors of the slot at once
    intro p hp
    have hFinds : ∀ s ∈ h.ruleset.selectors p.slot,
        h.resolveFrom anchor p s = if h.BeginsAt anchor p t f then h.staticEnds s else [] := by
      intro s hs
      rw [hp] at hs
      exact resolveFrom_of_isStatic hStatic (hBound.anchor hs) anchor p
    rw [reached_eq, reachedVia_congr hFinds]
    split
    · rfl
    · exact reachedVia_nil anchor p.slot

/-! ## A static field of a value type -/

/-- Nodes, and cells, which are values with a static node. -/
def cellLayout : Layout where
  wordSize := .four
  objectHeader := 4
  arrayHeader := 8
  types := [
    ⟨"", "Node", false, false, none, 8, [⟨"next", 0, 0, false, none⟩], some 1⟩,
    ⟨"", "Cell", true, false, none, 4, [⟨"root", 0, 4, true, some #[16, 0, 0, 0]⟩], none⟩]
  sound := by decide

/-- What follows the static node of cells gets a tag. -/
def tagRoot : Rule :=
  pairRule "Cell" (.tag ["root"] false) [.field "root", .field "next"]

/-- One node at 16, which is its own next one; the static node of cells is this one. -/
def cellHeap : Heap where
  snapshot := ⟨.four, #[⟨.ofNat .four 16, .whole #[1, 0, 0, 0, 16, 0, 0, 0], false⟩]⟩
  format := FixedHeader.format ⟨.four, 0, 4, cellLayout.typeWords⟩
  offsets := .fresh cellLayout (Ruleset.bind cellLayout [tagRoot] {}).1

theorem cellHeap_isBoundOn : cellHeap.ruleset.IsBoundOn cellHeap.layout :=
  ⟨[tagRoot], {}, rfl⟩

/-- The slot of the static node, at a position. -/
def cellPointer (position : Nat) : Pointer :=
  ⟨.ofNat .four 0, .ofMarks { tagAnchor := true }, ⟨1, some 0⟩, position⟩

theorem mem_selectors_cell :
    ⟨[.field 1 0, .field 0 0], []⟩ ∈ cellHeap.ruleset.selectors ⟨1, some 0⟩ := by
  decide

/-- From an address without memory the selector finds the node; from two bytes before the end of the
memory, or from a place that the memory does not reach, it finds nothing. -/
theorem finds_of_cell :
    cellHeap.ruleset.selectors ⟨1, some 0⟩ = [⟨[.field 1 0, .field 0 0], []⟩] ∧
      cellHeap.staticEnds ⟨[.field 1 0, .field 0 0], []⟩ = [.ofNat .four 16] ∧
      cellHeap.resolve (.ofNat .four 100) ⟨[.field 1 0, .field 0 0], []⟩ = .ok [.ofNat .four 16] ∧
      cellHeap.resolve (.ofNat .four 22) ⟨[.field 1 0, .field 0 0], []⟩ = .ok [] ∧
      (cellHeap.reached (.ofNat .four 16) (cellPointer 4)).tagged.map (·.target) =
        [.ofNat .four 16] ∧
      cellHeap.reached (.ofNat .four 16) (cellPointer 0) = {} := by
  have hStatic : cellHeap.layout.isStatic 1 0 = true := rfl
  have hMem := mem_selectors_cell
  have hEnds : cellHeap.staticEnds ⟨[.field 1 0, .field 0 0], []⟩ = [.ofNat .four 16] := by
    decide +kernel
  refine ⟨by decide, hEnds, ?_, ?_, ?_, ?_⟩
  · rw [(finds_of_isStatic cellHeap_isBoundOn hStatic _).1 _ hMem, hEnds, if_pos (by decide +kernel)]
  · rw [(finds_of_isStatic cellHeap_isBoundOn hStatic _).1 _ hMem, if_neg (by decide +kernel)]
  · rw [(finds_of_isStatic cellHeap_isBoundOn hStatic _).2.2 _ rfl, if_pos (by decide +kernel)]
    decide +kernel
  · rw [(finds_of_isStatic cellHeap_isBoundOn hStatic _).2.2 _ rfl, if_neg (by decide +kernel)]

/-- The static node of cells is not the same from everywhere. -/
theorem not_findsTheSame_cell :
    cellHeap.ruleset.IsBoundOn cellHeap.layout ∧ cellHeap.layout.isStatic 1 0 = true ∧
      ¬cellHeap.FindsTheSame 1 0 := by
  refine ⟨cellHeap_isBoundOn, rfl, ?_⟩
  rintro ⟨ends, hResolve, -⟩
  have hMem := mem_selectors_cell
  -- outside of the memory, and two bytes before its end
  have hFar := hResolve _ hMem (.ofNat .four 100)
  have hNear := hResolve _ hMem (.ofNat .four 22)
  have hDiffers : cellHeap.resolve (.ofNat .four 100) ⟨[.field 1 0, .field 0 0], []⟩ ≠
      cellHeap.resolve (.ofNat .four 22) ⟨[.field 1 0, .field 0 0], []⟩ := by decide +kernel
  exact hDiffers (hFar.trans hNear.symm)

end Heap

end RefRules
