import RefRules.Proofs.Nesting
import RefRules.Proofs.SessionHistory

/-!
# RefRules — questions to a table of offsets

A table makes the slots of a type when they are first asked for. Values that are nested in the type are
laid out in place, without tables of their own, so what a table holds can be told from the questions:
the types of which instances or elements were asked for. Whatever was asked before, the answer to a
question is the one that a fresh table gives.

Main results:

* `OffsetTable.ask_eq_answer` — an answer depends on the question alone;
* `OffsetTable.mem_types_askAll_iff` — the types that have been laid out;
* `OffsetTable.answers_of_history` — answers and tables after any questions.
-/

namespace RefRules

namespace OffsetTable

/-! ## Answers -/

/-- The slots that a question asks for, laid out for it alone. -/
def Query.answer (L : Layout) (r : Ruleset) : Query → List OffsetSlot
  | .object type base => (L.index? type).elim [] fun t => (slotsOf L r t).map (shiftSlot base)
  | .element array base =>
    (L.element? array).elim [] fun element =>
      if L.isValue element then (slotsOf L r element).map (shiftSlot base)
      else
        let slot : Slot := ⟨array, none⟩
        [⟨base, r.flags slot, slot, base.toNatClampNeg⟩]

/-- The same question, with the base moved. -/
def Query.movedBy (d : Int) : Query → Query
  | .object type base => .object type (base + .ofInt d)
  | .element array base => .element array (base + .ofInt d)

/-- The answers to questions in turn. -/
def answers (o : OffsetTable) : List Query → List (List OffsetSlot)
  | [] => []
  | query :: queries => (o.ask query).1 :: (o.ask query).2.answers queries

variable {o : OffsetTable} {L : Layout} {r : Ruleset}

theorem isFor_fresh (L : Layout) (r : Ruleset) : (fresh L r).IsFor L r := ⟨rfl, rfl⟩

/-- An answer depends on the question alone, and not on the tables made so far. -/
theorem ask_eq_answer (h : o.IsFor L r) (query : Query) : (o.ask query).1 = query.answer L r := by
  obtain ⟨rfl, rfl⟩ := h
  cases query with
  | object type base =>
    show (o.objectSlots type base).1 = (o.layout.index? type).elim [] _
    unfold objectSlots
    -- a table is faithful, whether it was made now or before
    cases o.layout.index? type with
    | none => rfl
    | some t => exact congrArg (List.map (shiftSlot base)) (o.table_eq t)
  | element array base =>
    show (o.elementSlots array base).1 = (o.layout.element? array).elim [] _
    unfold elementSlots
    cases hElement : o.layout.element? array with
    | none => rfl
    | some element =>
      rw [Option.elim_some]
      dsimp only
      split
      · exact objectSlots_eq (Layout.element?_lt hElement) base
      · rfl

theorem answers_eq_map (h : o.IsFor L r) (queries : List Query) :
    o.answers queries = queries.map (Query.answer L r) := by
  induction queries generalizing o with
  | nil => rfl
  | cons query queries ih => rw [answers, ask_eq_answer h, ih (h.ask query), List.map_cons]

/-! ## Moved answers -/

/-- The second slot is the first one, moved by `d`: by exactly that when its offset is a number of 32
bits again. A position says where the slot lies as long as that is not in front of the base. -/
structure IsMovedBy (d : Int) (s s' : OffsetSlot) : Prop where
  value : s'.value = .ofInt (s.value.toInt + d)
  exact : Numeral.isInt32 (s.value.toInt + d) = true → s'.value.toInt = s.value.toInt + d
  flags : s'.flags = s.flags
  slot : s'.slot = s.slot
  position : Numeral.isInt32 (s.value.toInt + d) = true → 0 ≤ s.value.toInt → 0 ≤ s'.value.toInt →
    (s'.position : Int) = s.position + d

/-- A slot that differs in its offset and in its position, which follows the offset, has been moved. -/
theorem isMovedBy_of_value {d : Int} {s s' : OffsetSlot} (hValue : s'.value = s.value + .ofInt d)
    (hFlags : s'.flags = s.flags) (hSlot : s'.slot = s.slot)
    (hHere : s.position = s.value.toNatClampNeg) (hThere : s'.position = s'.value.toNatClampNeg) :
    IsMovedBy d s s' := by
  have hSum : s'.value = .ofInt (s.value.toInt + d) := by
    rw [hValue, Int32.ofInt_add, Int32.ofInt_toInt]
  have hExact : Numeral.isInt32 (s.value.toInt + d) = true →
      s'.value.toInt = s.value.toInt + d := by
    intro hFits
    obtain ⟨hLeast, hMost⟩ := Numeral.isInt32_iff.mp hFits
    rw [hSum, Int32.toInt_ofInt_of_le hLeast (Int.lt_add_one_of_le hMost)]
  refine ⟨hSum, hExact, hFlags, hSlot, fun hFits hBehind hBehind' => ?_⟩
  have hMoved := hExact hFits
  rw [hHere, hThere, ← Int32.toNat_toInt, ← Int32.toNat_toInt]
  omega

theorem isMovedBy_shiftSlot (base : Int32) (d : Int) (slot : OffsetSlot) :
    IsMovedBy d (shiftSlot base slot) (shiftSlot (base + .ofInt d) slot) :=
  isMovedBy_of_value (Int32.add_assoc slot.value base (.ofInt d)).symm rfl rfl rfl rfl

/-- With the base moved, every slot of the answer is. -/
theorem forall₂_isMovedBy_answer (L : Layout) (r : Ruleset) (d : Int) (query : Query) :
    List.Forall₂ (IsMovedBy d) (query.answer L r) ((query.movedBy d).answer L r) := by
  have hSlots : ∀ base (slots : List OffsetSlot), List.Forall₂ (IsMovedBy d)
      (slots.map (shiftSlot base)) (slots.map (shiftSlot (base + .ofInt d))) := by
    intro base slots
    rw [List.forall₂_map_left_iff, List.forall₂_map_right_iff, List.forall₂_same]
    exact fun slot _ => isMovedBy_shiftSlot base d slot
  cases query with
  | object type base =>
    show List.Forall₂ _ ((L.index? type).elim [] _) ((L.index? type).elim [] _)
    cases L.index? type with
    | none => exact .nil
    | some t => exact hSlots base _
  | element array base =>
    show List.Forall₂ _ ((L.element? array).elim [] _) ((L.element? array).elim [] _)
    cases L.element? array with
    | none => exact .nil
    | some element =>
      rw [Option.elim_some, Option.elim_some]
      split
      · exact hSlots base _
      · -- the one slot of a reference lies at the base itself
        exact .cons (isMovedBy_of_value rfl rfl rfl rfl rfl) .nil

/-! ## Tables that are made -/

/-- The types that have been laid out, in the order in which they were asked for. -/
def types (o : OffsetTable) : List Nat :=
  o.tables.map (·.1)

/-- The question asks for type `t`: for its instances, or for elements of an array that are values of
the type. -/
inductive Query.Needs (L : Layout) : Query → Nat → Prop
  | object {t : Nat} {base : Int32} (ht : t < L.count) : Needs L (.object t base) t
  | element {array t : Nat} {base : Int32} (hElement : L.element? array = some t)
      (hValue : L.isValue t = true) : Needs L (.element array base) t

theorem types_table (o : OffsetTable) (t : Nat) :
    (o.table t).2.types = if t ∈ o.types then o.types else o.types ++ [t] := by
  unfold table
  split
  · next slots hFound =>
    obtain ⟨before, after, hSplit, -⟩ := List.lookup_eq_some_iff.mp hFound
    have hMem : t ∈ o.types := by simp [types, hSplit]
    rw [if_pos hMem]
  · next hNone =>
    have hNew : t ∉ o.types := by
      intro hMem
      obtain ⟨e, he, rfl⟩ := List.mem_map.mp hMem
      simpa using List.lookup_eq_none_iff.mp hNone e he
    rw [if_neg hNew]
    simp [types]

theorem needs_object_iff {type : Int} {base : Int32} {t : Nat} :
    Query.Needs L (.object type base) t ↔ L.index? type = some t := by
  rw [Layout.index?_eq_some_iff]
  constructor
  · rintro ⟨ht⟩
    exact ⟨rfl, ht⟩
  · rintro ⟨rfl, ht⟩
    exact .object ht

theorem needs_element_iff {array t : Nat} {base : Int32} :
    Query.Needs L (.element array base) t ↔ L.element? array = some t ∧ L.isValue t = true := by
  constructor
  · rintro (_ | ⟨hElement, hValue⟩)
    exact ⟨hElement, hValue⟩
  · rintro ⟨hElement, hValue⟩
    exact .element hElement hValue

theorem objectSlots_snd {type : Int} {t : Nat} (hIndex : o.layout.index? type = some t) (base : Int32) :
    (o.objectSlots type base).2 = (o.table t).2 := by
  rw [objectSlots, hIndex]

/-- A question has the table made of the type that it asks for, if there is one, and of no other. -/
theorem ask_snd_cases (o : OffsetTable) (query : Query) :
    (∃ t, (∀ u, query.Needs o.layout u ↔ u = t) ∧ (o.ask query).2 = (o.table t).2) ∨
      (∀ u, ¬query.Needs o.layout u) ∧ (o.ask query).2 = o := by
  cases query with
  | object type base =>
    simp only [needs_object_iff, ask]
    cases hIndex : o.layout.index? type with
    | none =>
      exact .inr ⟨fun u hu => Option.some_ne_none u hu.symm, by rw [objectSlots, hIndex]⟩
    | some t =>
      refine .inl ⟨t, fun u => ?_, objectSlots_snd hIndex base⟩
      rw [Option.some.injEq, eq_comm]
  | element array base =>
    simp only [needs_element_iff, ask, elementSlots]
    cases hElement : o.layout.element? array with
    | none => exact .inr ⟨fun u hu => Option.some_ne_none u hu.1.symm, rfl⟩
    | some element =>
      simp only [Option.some.injEq]
      cases hValue : o.layout.isValue element with
      | false =>
        -- one slot for a reference, which needs no table
        refine .inr ⟨?_, rfl⟩
        rintro u ⟨rfl, hu⟩
        cases hValue.symm.trans hu
      | true =>
        -- the slots of a value are those of an instance of its type
        have hIndex := Layout.index?_eq_some_iff.mpr ⟨rfl, Layout.element?_lt hElement⟩
        refine .inl ⟨element, fun u => ⟨fun hu => hu.1.symm, ?_⟩, objectSlots_snd hIndex base⟩
        rintro rfl
        exact ⟨rfl, hValue⟩

theorem mem_types_ask_iff (query : Query) {u : Nat} :
    u ∈ (o.ask query).2.types ↔ u ∈ o.types ∨ query.Needs o.layout u := by
  rcases o.ask_snd_cases query with ⟨t, hNeeds, hTable⟩ | ⟨hNeeds, hTable⟩
  · rw [hTable, types_table, hNeeds]
    split
    · next hMem => exact (or_iff_left_of_imp fun hEq => hEq ▸ hMem).symm
    · rw [List.mem_append, List.mem_singleton]
  · rw [hTable, or_iff_left (hNeeds u)]

theorem nodup_types_ask (h : o.types.Nodup) (query : Query) : (o.ask query).2.types.Nodup := by
  rcases o.ask_snd_cases query with ⟨t, -, hTable⟩ | ⟨-, hTable⟩
  · rw [hTable, types_table]
    split
    · exact h
    · next hNew => exact List.nodup_append.mpr ⟨h, List.nodup_singleton t, by grind⟩
  · rw [hTable]
    exact h

/-- After questions in turn, there are tables of the types that they ask for, and of those before. -/
theorem mem_types_askAll_iff (h : o.IsFor L r) (queries : List Query) {u : Nat} :
    u ∈ (o.askAll queries).types ↔ u ∈ o.types ∨ ∃ query ∈ queries, query.Needs L u := by
  induction queries generalizing o with
  | nil => simp [askAll]
  | cons query queries ih =>
    show u ∈ ((o.ask query).2.askAll queries).types ↔ _
    rw [ih (h.ask query), mem_types_ask_iff, h.layout, or_assoc, List.exists_mem_cons_iff]

theorem nodup_types_askAll (h : o.types.Nodup) (queries : List Query) :
    (o.askAll queries).types.Nodup := by
  induction queries generalizing o with
  | nil => exact h
  | cons query queries ih => exact ih (nodup_types_ask h query)

/-! ## Histories -/

/-- **Histories of a table.** Whatever questions are asked in turn, each is answered as by a fresh table.
As many tables have been made as there are types that were asked for, for their instances or as
elements of arrays. Two questions that differ in the base alone have the same answer, but for where
the slots lie: as far apart as the bases, unless an offset leaves the numbers of 32 bits. -/
theorem answers_of_history (L : Layout) (r : Ruleset) (queries : List Query) :
    (fresh L r).answers queries = queries.map (fun query => ((fresh L r).ask query).1) ∧
      (∃ types : Finset Nat, (∀ t, t ∈ types ↔ ∃ query ∈ queries, query.Needs L t) ∧
        ((fresh L r).askAll queries).computed = types.card) ∧
      ∀ (i j : Nat) (d : Int) (query : Query), queries[i]? = some query →
        queries[j]? = some (query.movedBy d) →
        ∃ slots slots', ((fresh L r).answers queries)[i]? = some slots ∧
          ((fresh L r).answers queries)[j]? = some slots' ∧
          List.Forall₂ (IsMovedBy d) slots slots' := by
  have hFresh := isFor_fresh L r
  have hAnswers := answers_eq_map hFresh queries
  refine ⟨?_, ⟨((fresh L r).askAll queries).types.toFinset, fun t => ?_, ?_⟩, ?_⟩
  · rw [hAnswers]
    exact List.map_congr_left fun query _ => (ask_eq_answer hFresh query).symm
  · rw [List.mem_toFinset, mem_types_askAll_iff hFresh]
    exact or_iff_right List.not_mem_nil
  · -- no type is laid out twice
    have hNodup := nodup_types_askAll (o := fresh L r) .nil queries
    rw [List.toFinset_card_of_nodup hNodup, computed, types, List.length_map]
  · intro i j d query hi hj
    refine ⟨_, _, ?_, ?_, forall₂_isMovedBy_answer L r d query⟩
    · rw [hAnswers, List.getElem?_map, hi, Option.map_some]
    · rw [hAnswers, List.getElem?_map, hj, Option.map_some]

/-- Instances and elements in turn; the type behind the last question does not exist. -/
def leafQueries : List Query :=
  [.object 3 0, .element 4 8, .object 3 100, .element 4 32, .object 1 8, .object 7 0]

/-- Leaves and pairs are laid out, nodes are not although leaves extend them. -/
theorem answers_of_leafQueries :
    ((fresh leafLayout {}).askAll leafQueries).computed = 2 ∧
      leafQueries[0]? = some (.object 3 0) ∧ leafQueries[2]? = some (Query.movedBy 100 (.object 3 0)) ∧
      ∃ slots slots', ((fresh leafLayout {}).answers leafQueries)[0]? = some slots ∧
        ((fresh leafLayout {}).answers leafQueries)[2]? = some slots' ∧
        List.Forall₂ (IsMovedBy 100) slots slots' := by
  obtain ⟨-, -, hMoved⟩ := answers_of_history leafLayout {} leafQueries
  exact ⟨by decide +kernel, rfl, rfl, hMoved 0 2 100 (.object 3 0) rfl rfl⟩

end OffsetTable

end RefRules
