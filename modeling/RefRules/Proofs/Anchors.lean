import RefRules.Heap.Walk
import RefRules.Proofs.Reading

/-!
# RefRules — walks from a slot

A slot can lie deep in an object: in the part of a base type, in an embedded value, in an element of
an array. The selectors that hang on it are walked from the struct that holds this very slot, so
their first hop reads what the slot holds.

Main results:

* `Heap.walkFrom_of_mem_pointers` — the walk from a pointer's slot goes on at the pointer;
* `Heap.reachedVia_congr` — what is reached through a slot depends on its own selectors only.
-/

namespace RefRules

/-- A selector that begins at a field walks that field first. -/
theorem Selector.walkHops_of_anchor? {s : Selector} {hop : StaticHop} (h : s.anchor? = some hop) :
    ∃ rest, s.walkHops = .fixed hop :: rest := by
  obtain ⟨hops, tail⟩ := s
  cases hops with
  | nil => cases h
  | cons first hops =>
    rw [anchor?, List.head?_cons, Option.some.injEq] at h
    exact ⟨hops.map .fixed ++ tail.map .named, by rw [← h]; rfl⟩

/-- The selectors of a slot are those of its three lists of anchors. -/
theorem Ruleset.selectors_eq (r : Ruleset) (slot : Slot) :
    r.selectors slot = (r.weights slot).map (·.selector) ++ (r.tags slot).map (·.selector) ++
      (r.conditions slot).map (·.selector) := by
  unfold selectors weights tags conditions
  cases r.lookup? slot <;> rfl

namespace Heap

variable {h : Heap}

/-- A slot of a reference field is read as a word. -/
theorem slotWidth_of_reference (hBound : h.ruleset.IsBoundOn h.layout) {u f : Nat} {offset : Int32}
    (hRef : h.layout.isValueField u f = false) :
    h.slotWidth (fieldSlot h.ruleset u f offset) = h.wordSize.bytes := by
  have hMark : (h.ruleset.flags ⟨u, some f⟩).marks.untraced = false := by
    cases hEntry : h.ruleset.lookup? ⟨u, some f⟩ with
    | none => simp [Ruleset.flags, hEntry, Flags.empty]
    | some e =>
      have hUntraced := hBound.untraced hEntry
      simpa [Ruleset.flags, hEntry, hRef] using hUntraced
  simp [slotWidth, fieldSlot, hMark]

/-- A reference field of a struct, read at the offset of the field. -/
theorem fieldTargets_of_readWord {c : Cursor} {u f : Nat} {word : Word}
    (hStatic : h.layout.isStatic u f = false) (hRef : h.layout.isValueField u f = false)
    (hRead : c.view.readWord (wrap64 (h.layout.fieldOffset u f c.hasHeader)) h.wordSize = .ok word) :
    h.fieldTargets c u f = [.pointer word (h.layout.fieldType u f)] := by
  have hType : h.layout.isValue (h.layout.fieldType u f) = false := hRef
  simp [fieldTargets, hStatic, hType, hRead, Except.toOption]

/-- A pointer that stands for a reference field is the word at the field's place in a struct. -/
theorem exists_struct_of_mem_pointers (hBound : h.ruleset.IsBoundOn h.layout)
    (hNonneg : h.layout.IsNonneg) {address : Word} {type : Int}
    (hFits : ∀ t, h.layout.index? type = some t → h.SumsFit address t) {ps : List Pointer}
    (hRead : (h.pointers address type).1 = .ok ps) {p : Pointer} (hp : p ∈ ps) {u f : Nat}
    (hSlot : p.slot = ⟨u, some f⟩) (hRef : h.layout.isValueField u f = false) :
    ∃ t instanceType origin around offset view, h.layout.index? type = some t ∧
      h.snapshot.viewAt? address = some view ∧ h.layout.HasInstance t instanceType origin ∧
      h.layout.Holds instanceType around u offset ∧ h.layout.isStatic u f = false ∧
      0 ≤ (h.layout.fieldOffset u f true).toInt ∧
      p.position = origin + offset.toNat + (h.layout.fieldOffset u f true).toNatClampNeg ∧
      view.readWord p.position h.wordSize = .ok p.value := by
  obtain ⟨t, instanceType, origin, view, slot, hIndex, hView, hInstance, hMem, hSums, hSame, hPosition,
    hValue⟩ := exists_slot_of_mem_pointers hNonneg hFits hRead hp hSlot
  obtain ⟨around, v, g, offset, hHolds, hField, hStatic, rfl⟩ := exists_holds_of_mem_slotsOf hMem
  obtain ⟨rfl, rfl⟩ : v = u ∧ g = f := by
    have hBoth : (⟨v, some g⟩ : Slot) = ⟨u, some f⟩ := hSame.trans hSlot
    simpa using hBoth
  have hOffset := hHolds.nonneg hNonneg
  have hDeclared := hNonneg.declaredOffset v g
  -- the offset of the slot is the sum of that of the struct and that of the field
  obtain ⟨hOwn, hSum⟩ := hSums.toInt_eq hNonneg hHolds hField hStatic
  have hPlace : p.position =
      origin + offset.toNat + (h.layout.fieldOffset v g true).toNatClampNeg := by
    rw [hPosition]
    show origin + (Int32.ofInt (offset + h.layout.declaredOffset v g)).toNatClampNeg = _
    rw [← Int32.toNat_toInt, ← Int32.toNat_toInt, hSum, hOwn]
    omega
  rw [readSlot, slotWidth_of_reference hBound hRef, View.readWidened_bytes] at hValue
  exact ⟨t, instanceType, origin, around, offset, view, hIndex, hView, hInstance, hHolds, hStatic,
    by omega, hPlace, hValue⟩

/-- What is reached through a slot. -/
structure Reached where
  fused : List Word := []
  owned : List WeightedReference := []
  tagged : List TaggedReference := []

/-- What is reached through a slot from `anchor` when each of its selectors finds a list. -/
def reachedVia (h : Heap) (anchor : Word) (slot : Slot) (find : Selector → List Word) : Reached where
  fused := (h.ruleset.conditions slot).flatMap fun a => find a.selector
  owned := (h.ruleset.weights slot).flatMap fun a =>
    (find a.selector).map fun child => ⟨child, anchor, a.weight, a.location⟩
  tagged := (h.ruleset.tags slot).flatMap fun a =>
    (find a.selector).map fun target => ⟨target, a.tags, a.location⟩

/-- What is reached through the slot of a pointer from `anchor`. -/
def reached (h : Heap) (anchor : Word) (p : Pointer) : Reached :=
  ⟨h.fused anchor p, h.owned anchor p, h.tagged anchor p⟩

theorem reached_eq (anchor : Word) (p : Pointer) :
    h.reached anchor p = h.reachedVia anchor p.slot (h.resolveFrom anchor p) := rfl

/-- What is reached through a slot depends on its own selectors only. -/
theorem reachedVia_congr {anchor : Word} {slot : Slot} {find find' : Selector → List Word}
    (hSame : ∀ s ∈ h.ruleset.selectors slot, find s = find' s) :
    h.reachedVia anchor slot find = h.reachedVia anchor slot find' := by
  rw [Ruleset.selectors_eq] at hSame
  have hWeights : ∀ a ∈ h.ruleset.weights slot, find a.selector = find' a.selector :=
    fun a ha => hSame _ (by simp [List.mem_map_of_mem ha])
  have hTags : ∀ a ∈ h.ruleset.tags slot, find a.selector = find' a.selector :=
    fun a ha => hSame _ (by simp [List.mem_map_of_mem ha])
  have hConditions : ∀ a ∈ h.ruleset.conditions slot, find a.selector = find' a.selector :=
    fun a ha => hSame _ (by simp [List.mem_map_of_mem ha])
  simp only [reachedVia, Reached.mk.injEq]
  refine ⟨?_, ?_, ?_⟩
  · exact List.flatMap_congr hConditions
  · exact List.flatMap_congr fun a ha => by rw [hWeights a ha]
  · exact List.flatMap_congr fun a ha => by rw [hTags a ha]

/-- Selectors that find nothing reach nothing. -/
theorem reachedVia_nil (anchor : Word) (slot : Slot) : h.reachedVia anchor slot (fun _ => []) = {} := by
  simp [reachedVia]

/-! ## A small heap -/

/-- Nodes in a chain, pairs of nodes as values, and holders of a pair and of one node. -/
def pairLayout : Layout where
  wordSize := .four
  objectHeader := 4
  arrayHeader := 8
  types := [
    ⟨"", "Node", false, false, none, 8, [⟨"next", 0, 0, false, none⟩], some 1⟩,
    ⟨"", "Pair", true, false, none, 8,
      [⟨"first", 0, 0, false, none⟩, ⟨"second", 0, 4, false, none⟩], some 2⟩,
    ⟨"", "Holder", false, false, none, 16,
      [⟨"box", 0, 0, false, none⟩, ⟨"pair", 1, 4, false, none⟩], some 3⟩]
  sound := by decide

theorem pairLayout_isNonneg : pairLayout.IsNonneg :=
  ⟨by decide, by decide, by decide⟩

/-- The types of the layout are as large as what lies in them, so no sum wraps. -/
theorem pairLayout_sumsFit {t : Nat} (ht : t < 3) (base : Int) (hBase : base ≤ 4) :
    pairLayout.SumsFit t base := by
  have hSizes : ∀ t < 3, (pairLayout.size t).toInt ≤ 16 := by decide
  have hSize := hSizes t ht
  exact Layout.sumsFit_of_room (fun u => (pairLayout.size u).toInt) (by decide) (by decide)
    (by decide) (by omega)

/-- From address 16 on: a holder, a boxed pair at 32, a node at 44. -/
def pairMemory : Store :=
  #[3, 0, 0, 0, 32, 0, 0, 0, 0, 0, 0, 0, 44, 0, 0, 0,
    2, 0, 0, 0, 44, 0, 0, 0, 16, 0, 0, 0,
    1, 0, 0, 0, 16, 0, 0, 0]

/-- The memory with some rules; each object begins with the number of its type. -/
def pairHeap (rules : List Rule) : Heap where
  snapshot := ⟨.four, #[⟨.ofNat .four 16, .whole pairMemory, false⟩]⟩
  format := FixedHeader.format ⟨.four, 0, 4, pairLayout.typeWords⟩
  offsets := .fresh pairLayout (Ruleset.bind pairLayout rules {}).1

/-- A rule about one type of the layout. -/
def pairRule (type : String) (kind : RuleKind) (path : List Hop) : Rule where
  spec := ⟨type, none, .exact type⟩
  kind := kind
  path := ⟨path⟩
  location := ⟨"pair.rcl", 1⟩
  group := anonymousGroup

theorem pairHeap_isBoundOn (rules : List Rule) :
    (pairHeap rules).ruleset.IsBoundOn (pairHeap rules).layout :=
  ⟨rules, {}, rfl⟩

/-- Objects with a pair are fused with what follows its second node. -/
def fuseSecond : Rule :=
  pairRule "Pair" .fuseWith [.field "second", .field "next"]

end Heap

end RefRules
