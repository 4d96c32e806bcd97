import RefRules.Proofs.Dynamic
import RefRules.Proofs.Lookup
import RefRules.Proofs.Nesting
import RefRules.Proofs.StrictWalk
import RefRules.Proofs.Tables

/-!
# RefRules — safety of walks

The numbers that a walk looks types and fields up by come from selectors, from declared types, from the
type words of objects and from searches along base types. In a heap whose ruleset is bound on its
layout each of them names a row, whatever the memory holds, and no read leaves the memory: strict walks
do not fail. What carries is that cursors stand on types and on memory that there are.

Main results:

* `Heap.strictHop_eq` — a hop from a place that there is leads to places that there are;
* `Heap.strictWalk_eq` — so a whole walk does not fail;
* `Heap.strictReached_eq` — nor do all walks from the slot of a pointer; no pointer that they find is
  null.
-/

namespace RefRules

/-! ## Lookups succeed -/

namespace Layout

variable {L : Layout}

/-- The row of a type that there is. -/
theorem exists_typeAt {t : Nat} (ht : t < L.count) :
    ∃ type, L.typeAt t = .ok type ∧ L.types[t]? = some type := by
  have hRow : L.types[t]? = some L.types[t] := List.getElem?_eq_getElem ht
  exact ⟨L.types[t], by simp [typeAt, hRow], hRow⟩

/-- The rows of a field that there is, of its owner and of its type. -/
theorem exists_fieldAt {t f : Nat} (hf : f < (L.fields t).length) :
    ∃ owner field, L.typeAt t = .ok owner ∧ L.types[t]? = some owner ∧
      L.fieldAt t f = .ok field ∧ L.field? t f = some field ∧ field ∈ owner.fields := by
  obtain ⟨owner, hAt, hOwner⟩ := exists_typeAt (lt_count_of_lt_fields hf)
  have hFields : L.fields t = owner.fields := by simp [fields, hOwner]
  rw [hFields] at hf
  have hField : owner.fields[f]? = some owner.fields[f] := List.getElem?_eq_getElem hf
  refine ⟨owner, owner.fields[f], hAt, hOwner, ?_, ?_, List.getElem_mem hf⟩
  · simp [fieldAt, hAt, bind_eq_ok_iff, hField]
  · rw [field?, hFields, hField]

theorem isValue_eq {t : Nat} {type : TypeInfo} (hType : L.types[t]? = some type) :
    L.isValue t = type.isValue := by
  simp [isValue, hType]

theorem isStatic_eq {t f : Nat} {field : FieldInfo} (hField : L.field? t f = some field) :
    L.isStatic t f = field.isStatic := by
  simp [isStatic, hField]

theorem storage?_eq {t f : Nat} {field : FieldInfo} (hField : L.field? t f = some field) :
    L.storage? t f = field.storage.map .whole := by
  simp [storage?, hField]

/-- Only objects of reference types have a header before their fields. -/
theorem fieldOffset_of_info {t f : Nat} {owner : TypeInfo} {field : FieldInfo}
    (hOwner : L.types[t]? = some owner) (hField : L.field? t f = some field) (hasHeader : Bool) :
    L.fieldOffset t f hasHeader =
      field.offset + if hasHeader && !owner.isValue then L.objectHeader else 0 := by
  simp only [fieldOffset, hField, isValue_eq hOwner, Option.elim_some]
  split <;> simp

theorem base?_lt {t b : Nat} (hBase : L.base? t = some b) : b < L.count :=
  (Embeds.base hBase).lt_count.2

/-- The search for a field looks up types that there are, and finds what there is. -/
theorem strictFindFrom_eq (name : String) (fuel : Nat) {t : Nat} (ht : t < L.count) :
    L.strictFindFrom name fuel t = .ok (L.findFrom name fuel t) := by
  -- on the steps up the chain; every base type is one of the table
  induction fuel generalizing t with
  | zero => rfl
  | succ fuel ih =>
    obtain ⟨type, hAt, hRow⟩ := exists_typeAt ht
    have hFields : L.fields t = type.fields := by simp [fields, hRow]
    have hBase : L.base? t = type.base? := by simp [base?, hRow]
    rw [strictFindFrom, findFrom, findDeclared, hFields, hBase, hAt, ok_bind]
    cases hDeclared : type.fields.findIdx? fun f => f.name == name with
    | some f => rfl
    | none =>
      cases hNext : type.base? with
      | none => rfl
      | some base => exact ih (base?_lt (hBase.trans hNext))

end Layout

/-! ## Memory stays memory -/

namespace View

theorem isPartOf_trans {u v w : View} (huv : u.isPartOf v = true) (hvw : v.isPartOf w = true) :
    u.isPartOf w = true := by
  cases u <;> cases v <;> cases w <;> simp only [isPartOf, Bool.false_eq_true] at huv hvw
  simp only [isPartOf, Bool.and_eq_true, beq_iff_eq, decide_eq_true_eq] at huv hvw ⊢
  refine ⟨huv.1.trans hvw.1, ?_, ?_⟩
  · omega
  · omega

/-- What is cut out of a view is a part of it. -/
theorem isPartOf_of_range {v part : View} {position size : Nat}
    (hPart : v.range position size = .ok part) : part.isPartOf v = true := by
  obtain ⟨w, hFits, rfl, rfl⟩ := exists_window_of_range hPart
  have hInside : w.offset + position + size ≤ w.offset + w.size := by omega
  simp only [isPartOf, Bool.and_eq_true, beq_iff_eq, decide_eq_true_eq]
  exact ⟨rfl, Nat.le_add_right .., hInside⟩

theorem isPartOf_of_tail {v part : View} {position : Nat} (hPart : v.tail position = .ok part) :
    part.isPartOf v = true := by
  unfold tail at hPart
  split at hPart
  · exact isPartOf_of_range hPart
  · exact isPartOf_of_range hPart

end View

namespace Heap

variable {h : Heap}

/-- A part of the memory is memory. -/
theorem isMemory_of_isPartOf {v w : View} (hPart : v.isPartOf w = true) (hw : h.isMemory w = true) :
    h.isMemory v = true := by
  cases w with
  | invalid =>
    -- nothing is a part of no memory
    cases v <;> simp [View.isPartOf] at hPart
  | window w =>
    simp only [isMemory, View.isValid, Bool.not_true, Bool.false_or, List.any_eq_true] at hw
    obtain ⟨region, hRegion, hIn⟩ := hw
    simp only [isMemory, Bool.or_eq_true, List.any_eq_true]
    exact .inr ⟨region, hRegion, View.isPartOf_trans hPart hIn⟩

theorem isMemory_of_mem_regions {w : Window} (hRegion : .window w ∈ h.regions) :
    h.isMemory (.window w) = true := by
  simp only [isMemory, Bool.or_eq_true, List.any_eq_true]
  exact .inr ⟨_, hRegion, by simp [View.isPartOf]⟩

/-- What is mapped at an address is a part of a segment. -/
theorem isMemory_of_viewAt? {address : Word} {view : View}
    (hView : h.snapshot.viewAt? address = some view) : h.isMemory view = true := by
  obtain ⟨segment, hSegment, hRest⟩ := Option.bind_eq_some_iff.mp hView
  obtain ⟨distance, -, hTail⟩ := Option.bind_eq_some_iff.mp hRest
  have hPart : view.isPartOf segment.view = true :=
    View.isPartOf_of_tail (toOption_eq_some_iff.mp hTail)
  have hMem : segment ∈ h.snapshot.segments := Segment.mem_of_bisect hSegment
  have hRegion : segment.view ∈ h.regions :=
    List.mem_append_left _ (List.mem_map_of_mem (Array.mem_toList_iff.mpr hMem))
  cases hWindow : segment.view with
  | invalid => cases view <;> simp [hWindow, View.isPartOf] at hPart
  | window w => exact isMemory_of_isPartOf hPart (hWindow ▸ isMemory_of_mem_regions (hWindow ▸ hRegion))

/-- The storage of a static field is memory. -/
theorem isMemory_storage {t : Nat} {owner : TypeInfo} {field : FieldInfo} {store : Store}
    (hOwner : h.layout.types[t]? = some owner) (hField : field ∈ owner.fields)
    (hStatic : field.isStatic = true) (hStore : field.storage = some store) :
    h.isMemory (.whole store) = true := by
  refine isMemory_of_mem_regions (List.mem_append_right _ (List.mem_flatMap.mpr ?_))
  exact ⟨owner, List.mem_of_getElem? hOwner,
    List.mem_filterMap.mpr ⟨field, hField, by simp [hStatic, hStore, View.whole]⟩⟩

theorem requireMemory_eq {view : View} (hView : h.isMemory view = true) :
    h.requireMemory view = .ok () :=
  if_pos hView

theorem strictWord_eq {view : View} (hView : h.isMemory view = true) (position : Nat) :
    h.strictWord view position = .ok (view.readWord position h.wordSize).toOption := by
  rw [strictWord, requireMemory_eq hView]
  rfl

/-! ## Hops -/

/-- What a field leads to is looked up and read where it is. -/
theorem strictField_eq {c : Cursor} {t f : Nat} (hf : f < (h.layout.fields t).length)
    (hView : h.isMemory c.view = true) : h.strictField c t f = .ok (h.fieldTargets c t f) := by
  obtain ⟨owner, field, hOwnerAt, hOwner, hFieldAt, hField, hMem⟩ := Layout.exists_fieldAt hf
  have hFieldType : h.layout.fieldType t f = field.type := by simp [Layout.fieldType, hField]
  obtain ⟨type, hTypeAt, hType⟩ := Layout.exists_typeAt (hFieldType ▸ Layout.fieldType_lt hf)
  have hSize : h.layout.size field.type = type.size := by simp [Layout.size, hType]
  rw [strictField, hOwnerAt, ok_bind, hFieldAt, ok_bind, hTypeAt, ok_bind]
  simp only [fieldTargets, staticTargets, hFieldType, hSize, Layout.isStatic_eq hField,
    Layout.storage?_eq hField, Layout.isValue_eq hType, Layout.fieldOffset_of_info hOwner hField]
  cases hIsStatic : field.isStatic with
  | true =>
    simp only [if_true]
    cases hStore : field.storage with
    | none => rfl
    | some store =>
      have hMemory := isMemory_storage hOwner hMem hIsStatic hStore
      simp only [Option.map_some, strictWord_eq hMemory, ok_bind]
      split <;> rfl
  | false =>
    simp only [Bool.false_eq_true, if_false, strictWord_eq hView, requireMemory_eq hView, ok_bind]
    split <;> rfl

/-- The elements of an array are looked up and read where they are. -/
theorem strictElements_eq {view : View} {t : Nat} (ht : t < h.layout.count)
    (hView : h.isMemory view = true) : h.strictElements view t = .ok (h.elementTargets view t) := by
  obtain ⟨array, hArrayAt, hArray⟩ := Layout.exists_typeAt ht
  have hElement : h.layout.element? t = array.element? := by simp [Layout.element?, hArray]
  rw [strictElements, hArrayAt, ok_bind, elementTargets, hElement]
  cases hRow : array.element? with
  | none => rfl
  | some e =>
    obtain ⟨element, hElementAt, hElementRow⟩ :=
      Layout.exists_typeAt (Layout.element?_lt (hElement.trans hRow))
    have hRelated : h.layout.related? t = some e := by
      simp only [TypeInfo.element?, Option.ite_none_right_eq_some] at hRow
      simp [Layout.related?, hArray, hRow.2]
    have hStride : h.layout.elementSize t =
        if element.isValue then element.size else .ofNat h.layout.wordSize.bytes := by
      simp [Layout.elementSize, hRelated, Layout.isValue_eq hElementRow, Layout.size, hElementRow]
    simp only [hElementAt, ok_bind, requireMemory_eq hView, hStride]
    cases h.format.arrayLength view t with
    | error e => rfl
    | ok length => rfl

end Heap

/-! ## Places that there are -/

/-- The hop names rows of the tables; a name has yet to be found. -/
def WalkHop.IsIn (L : Layout) : WalkHop → Prop
  | .fixed (.field t f) => f < (L.fields t).length
  | .fixed (.elements t) => t < L.count
  | .named _ => True

/-- The cursor has a type of the table, and stands on memory. -/
structure Cursor.IsIn (h : Heap) (c : Cursor) : Prop where
  type_lt : c.type < h.layout.count
  isMemory : h.isMemory c.view = true

/-- What a hop leads to has a type of the table, and a value lies in memory. -/
def Target.IsIn (h : Heap) : Target → Prop
  | .value c => c.IsIn h
  | .pointer _ declared => declared < h.layout.count
  | .missing _ t => t < h.layout.count

/-- A target of a type of the table, with its bytes in memory if it is a value. -/
theorem Target.isIn_of_hasType {h : Heap} {target : Target} {t : Nat} (ht : t < h.layout.count)
    (hType : target.HasType t)
    (hView : ∀ c, target = .value c → h.isMemory c.view = true) : target.IsIn h := by
  cases target with
  | value c =>
    have hSame : c.type = t := hType
    exact ⟨hSame ▸ ht, hView c rfl⟩
  | pointer word declared =>
    have hSame : declared = t := hType
    exact hSame ▸ ht
  | missing name u => cases hType

namespace Heap

variable {h : Heap}

/-- An embedded value lies in the memory of its struct. -/
theorem isMemory_of_range {v part : View} {position size : Nat} (hView : h.isMemory v = true)
    (hPart : (v.range position size).toOption = some part) : h.isMemory part = true :=
  isMemory_of_isPartOf (View.isPartOf_of_range (toOption_eq_some_iff.mp hPart)) hView

theorem isMemory_of_mem_staticTargets {t f : Nat} {c : Cursor}
    (hf : f < (h.layout.fields t).length) (hStatic : h.layout.isStatic t f = true)
    (hTarget : .value c ∈ h.staticTargets t f) : h.isMemory c.view = true := by
  obtain ⟨owner, field, -, hOwner, -, hField, hMem⟩ := Layout.exists_fieldAt hf
  have hIsStatic : field.isStatic = true := (Layout.isStatic_eq hField).symm.trans hStatic
  have hStorage := Layout.storage?_eq hField
  cases hStore : field.storage with
  | none => simp [staticTargets, hStorage, hStore] at hTarget
  | some store =>
    simp only [staticTargets, hStorage, hStore, Option.map_some] at hTarget
    split at hTarget
    · rw [List.mem_singleton, valueIn, Target.value.injEq] at hTarget
      rw [hTarget]
      exact isMemory_storage hOwner hMem hIsStatic hStore
    · -- a pointer is no value
      simp at hTarget

theorem isMemory_of_mem_fieldTargets {c next : Cursor} {t f : Nat}
    (hf : f < (h.layout.fields t).length) (hView : h.isMemory c.view = true)
    (hTarget : .value next ∈ h.fieldTargets c t f) : h.isMemory next.view = true := by
  unfold fieldTargets at hTarget
  dsimp only at hTarget
  split at hTarget
  · next hStatic => exact isMemory_of_mem_staticTargets hf hStatic hTarget
  · split at hTarget
    · obtain ⟨part, hPart, hNext⟩ := Option.map_eq_some_iff.mp (Option.mem_toList.mp hTarget)
      rw [valueIn, Target.value.injEq] at hNext
      exact hNext ▸ isMemory_of_range hView hPart
    · simp at hTarget

theorem isMemory_of_mem_elementsFrom {view : View} {element first stride count index : Nat}
    {next : Cursor} (hView : h.isMemory view = true)
    (hTarget : .value next ∈ h.elementsFrom view element first stride count index) :
    h.isMemory next.view = true := by
  -- on the number of elements that are left; each of them is cut out of the view
  induction count generalizing index with
  | zero => simp [elementsFrom] at hTarget
  | succ count ih =>
    rw [elementsFrom] at hTarget
    split at hTarget
    · simp at hTarget
    · split at hTarget
      · simp at hTarget
      · next head hHead =>
        rcases List.mem_cons.mp hTarget with rfl | hTarget
        · unfold elementAt? at hHead
          split at hHead
          · obtain ⟨part, hPart, hNext⟩ := Option.map_eq_some_iff.mp hHead
            rw [valueIn, Target.value.injEq] at hNext
            exact hNext ▸ isMemory_of_range hView hPart
          · simp at hHead
        · exact ih hTarget

theorem isIn_of_mem_fieldTargets {c : Cursor} {t f : Nat} {target : Target}
    (hf : f < (h.layout.fields t).length) (hView : h.isMemory c.view = true)
    (hTarget : target ∈ h.fieldTargets c t f) : target.IsIn h :=
  Target.isIn_of_hasType (Layout.fieldType_lt hf) (hasType_of_mem_fieldTargets hTarget)
    fun _ hValue => isMemory_of_mem_fieldTargets hf hView (hValue ▸ hTarget)

theorem isIn_of_mem_elementTargets {view : View} {t : Nat} {target : Target}
    (hView : h.isMemory view = true) (hTarget : target ∈ h.elementTargets view t) :
    target.IsIn h := by
  cases hElement : h.layout.element? t with
  | none => simp [elementTargets, hElement] at hTarget
  | some element =>
    refine Target.isIn_of_hasType (Layout.element?_lt hElement)
      (hasType_of_mem_elementTargets hElement hTarget) ?_
    rintro c rfl
    simp only [elementTargets, hElement] at hTarget
    split at hTarget
    · simp at hTarget
    · split at hTarget
      · simp at hTarget
      · exact isMemory_of_mem_elementsFrom hView hTarget

/-- **Step lemma.** From a place that there is a strict hop does not fail, and leads to places that
there are. -/
theorem strictHop_eq {c : Cursor} {step : WalkHop} (hc : c.IsIn h) (hStep : step.IsIn h.layout) :
    h.strictHop c step = .ok (h.hop c step) ∧ ∀ target ∈ h.hop c step, target.IsIn h := by
  cases step with
  | fixed hop =>
    cases hop with
    | field t f =>
      exact ⟨strictField_eq hStep hc.isMemory, fun _ => isIn_of_mem_fieldTargets hStep hc.isMemory⟩
    | elements t =>
      exact ⟨strictElements_eq hStep hc.isMemory, fun _ => isIn_of_mem_elementTargets hc.isMemory⟩
  | named hop =>
    cases hop with
    | elements =>
      exact ⟨strictElements_eq hc.type_lt hc.isMemory,
        fun _ => isIn_of_mem_elementTargets hc.isMemory⟩
    | field name =>
      -- the field that is found is one of the type above that declares it
      have hFind : h.layout.strictFindFrom name (h.layout.count + 1) c.type =
          .ok (h.layout.findField c.type name) := Layout.strictFindFrom_eq name _ hc.type_lt
      rw [strictHop, hFind, ok_bind, hop]
      cases hFound : h.layout.findField c.type name with
      | none =>
        refine ⟨rfl, fun target hTarget => ?_⟩
        rw [List.mem_singleton.mp hTarget]
        exact hc.type_lt
      | some slot =>
        obtain ⟨t, f⟩ := slot
        have hf : f < (h.layout.fields t).length := (Layout.isAbove_of_findFrom hFound).2
        exact ⟨strictField_eq hf hc.isMemory, fun _ => isIn_of_mem_fieldTargets hf hc.isMemory⟩

/-! ## Walks -/

/-- The types that objects tell are types of the layout. -/
def TellsTypes (h : Heap) : Prop :=
  ∀ view t, h.format.typeOf? view = some t → t < h.layout.count

/-- A pointer leads to an object that there is. -/
theorem strictFollow_eq (hTells : h.TellsTypes) {declared : Nat} (hDeclared : declared < h.layout.count)
    (word : Word) :
    h.strictFollow word declared = .ok (h.follow? word declared) ∧
      ∀ next, h.follow? word declared = some next → next.IsIn h := by
  unfold strictFollow follow?
  cases hView : h.snapshot.viewAt? word with
  | none => exact ⟨rfl, fun next hNext => by cases hNext⟩
  | some view =>
    have hMemory : h.isMemory view = true := isMemory_of_viewAt? hView
    refine ⟨by simp only [requireMemory_eq hMemory]; rfl, fun next hNext => ?_⟩
    rw [Option.map_some, Option.some.injEq] at hNext
    subst hNext
    refine ⟨?_, hMemory⟩
    -- the type that the object tells, or the declared one
    cases hType : h.format.typeOf? view with
    | none => exact hDeclared
    | some t => exact hTells view t hType

/-- What a walk meets at a target and behind it. -/
def meets (h : Heap) (rest : List WalkHop) : Target → List Encounter
  | .missing name t => [.missing name t]
  | .value next => h.walk rest next
  | .pointer word declared =>
    if word.isNull then []
    else if rest.isEmpty then [.found word]
    else
      match h.follow? word declared with
      | none => []
      | some next => h.walk rest next

theorem walk_cons (step : WalkHop) (rest : List WalkHop) (c : Cursor) :
    h.walk (step :: rest) c = (h.hop c step).flatMap (h.meets rest) := by
  rw [walk]
  rfl

/-- **Run lemma.** From a place that there is a strict walk does not fail. -/
theorem strictWalk_eq (hTells : h.TellsTypes) {steps : List WalkHop}
    (hSteps : ∀ step ∈ steps, step.IsIn h.layout) {c : Cursor} (hc : c.IsIn h) :
    h.strictWalk steps c = .ok (h.walk steps c) := by
  -- on the hops; that the cursor is a place that there is carries over each of them
  induction steps generalizing c with
  | nil => rfl
  | cons step rest ih =>
    have hRest : ∀ {next : Cursor}, next.IsIn h → h.strictWalk rest next = .ok (h.walk rest next) :=
      ih fun later hLater => hSteps later (List.mem_cons_of_mem _ hLater)
    obtain ⟨hHop, hTargets⟩ := strictHop_eq hc (hSteps step (List.mem_cons_self ..))
    rw [strictWalk, hHop, ok_bind, walk_cons, List.flatMap_def, mapM_eq_ok (g := h.meets rest)]
    · rfl
    · intro target hTarget
      have hIn : target.IsIn h := hTargets target hTarget
      cases target with
      | missing name t =>
        obtain ⟨type, hType, -⟩ := Layout.exists_typeAt hIn
        dsimp only
        rw [hType]
        rfl
      | value next => exact hRest hIn
      | pointer word declared =>
        obtain ⟨hFollow, hNext⟩ := strictFollow_eq hTells hIn word
        dsimp only [meets]
        split
        · rfl
        · split
          · rfl
          · rw [hFollow, ok_bind]
            cases hObject : h.follow? word declared with
            | none => rfl
            | some next => exact hRest (hNext next hObject)

/-- A walk finds no null pointer. -/
theorem isNull_of_found {steps : List WalkHop} {c : Cursor} {word : Word}
    (hFound : .found word ∈ h.walk steps c) : word.isNull = false := by
  -- on the hops; what is found is asked for null before
  induction steps generalizing c with
  | nil => simp [walk] at hFound
  | cons step rest ih =>
    rw [walk_cons, List.mem_flatMap] at hFound
    obtain ⟨target, -, hMet⟩ := hFound
    cases target with
    | missing name t => simp [meets] at hMet
    | value next => exact ih hMet
    | pointer pointed declared =>
      dsimp only [meets] at hMet
      cases hNull : pointed.isNull with
      | true => simp [hNull] at hMet
      | false =>
        simp only [hNull, Bool.false_eq_true, if_false] at hMet
        split at hMet
        · rw [List.mem_singleton, Encounter.found.injEq] at hMet
          exact hMet ▸ hNull
        · split at hMet
          · simp at hMet
          · exact ih hMet

/-! ## Selectors -/

end Heap

namespace Layout

variable {L : Layout}

/-- A selector passes over rows of the tables only. -/
theorem Passes.isIn {t last : Nat} {hops : List StaticHop} (hPasses : L.Passes t hops last) :
    ∀ hop ∈ hops, (WalkHop.fixed hop).IsIn L := by
  -- on the hops; a type with elements has a row, and so has a field that is found above
  induction hPasses with
  | here => simp
  | @elements t element last hops hElement _ ih =>
    obtain ⟨type, hType, -⟩ := Option.bind_eq_some_iff.mp hElement
    have ht : t < L.count := (List.getElem?_eq_some_iff.mp hType).1
    exact List.forall_mem_cons.mpr ⟨ht, ih⟩
  | field hAbove hField _ ih => exact List.forall_mem_cons.mpr ⟨hField, ih⟩

theorem IsAnchor.isIn {t f : Nat} {s : Selector} (hAnchor : L.IsAnchor t f s)
    (hf : f < (L.fields t).length) : ∀ step ∈ s.walkHops, step.IsIn L := by
  intro step hStep
  cases hAnchor with
  | fixed hPasses _ =>
    simp only [Selector.walkHops, List.map_nil, List.append_nil] at hStep
    obtain ⟨hop, hHop, rfl⟩ := List.mem_map.mp hStep
    rcases List.mem_cons.mp hHop with rfl | hLater
    · exact hf
    · exact hPasses.isIn hop hLater
  | dynamic _ =>
    rcases List.mem_cons.mp hStep with rfl | hLater
    · exact hf
    · -- the later hops are names
      obtain ⟨hop, -, rfl⟩ := List.mem_map.mp hLater
      exact trivial

end Layout

namespace Heap

variable {h : Heap}

/-- Where the walk of a selector begins there is memory, or nothing at all. -/
theorem isMemory_of_rootView? {anchor : Word} {start : Nat} {first : StaticHop} {view : View}
    (hRoot : h.rootView? anchor start first = some view) : h.isMemory view = true := by
  unfold rootView? at hRoot
  split at hRoot
  · next object hObject =>
    have hPart : view.isPartOf object = true := View.isPartOf_of_tail (toOption_eq_some_iff.mp hRoot)
    exact isMemory_of_isPartOf hPart (isMemory_of_viewAt? hObject)
  · rw [Option.ite_none_right_eq_some, Option.some.injEq] at hRoot
    exact hRoot.2 ▸ rfl

theorem strictRoot_eq {t f : Nat} {field : FieldInfo} (hField : h.layout.field? t f = some field)
    (anchor : Word) (start : Nat) :
    h.strictRoot anchor start field = h.rootView? anchor start (.field t f) := by
  have hStatic : h.isStaticHop (.field t f) = field.isStatic := by
    simp [isStaticHop, Layout.isStatic, hField]
  cases hView : h.snapshot.viewAt? anchor with
  | none => simp only [strictRoot, rootView?, hView, hStatic]
  | some view => simp only [strictRoot, rootView?, hView]

theorem strictAt_eq (hTells : h.TellsTypes) {t f : Nat} (hf : f < (h.layout.fields t).length)
    {s : Selector} (hFirst : s.anchor? = some (.field t f))
    (hSteps : ∀ step ∈ s.walkHops, step.IsIn h.layout) (anchor : Word) (start : Nat) :
    h.strictAt anchor start t f s = .ok (h.walkAt anchor start s) := by
  obtain ⟨type, field, hTypeAt, hType, hFieldAt, hField, -⟩ := Layout.exists_fieldAt hf
  rw [strictAt, hTypeAt, ok_bind, hFieldAt, ok_bind, walkAt, hFirst]
  dsimp only [StaticHop.type]
  rw [strictRoot_eq hField, Layout.isValue_eq hType]
  cases hView : h.rootView? anchor start (.field t f) with
  | none => rfl
  | some view =>
    exact strictWalk_eq hTells hSteps ⟨Layout.lt_count_of_lt_fields hf, isMemory_of_rootView? hView⟩

/-- From the slot of a pointer, a selector that hangs on it resolves without a fault. -/
theorem strictFrom_eq (hBound : h.ruleset.IsBoundOn h.layout) (hTells : h.TellsTypes) {p : Pointer}
    {s : Selector} (hs : s ∈ h.ruleset.selectors p.slot) (anchor : Word) :
    h.strictFrom anchor p s = .ok (h.resolveFrom anchor p s) := by
  obtain ⟨t, field, hSlot⟩ : ∃ t field, p.slot = ⟨t, field⟩ := ⟨_, _, rfl⟩
  rw [hSlot] at hs
  cases field with
  | none =>
    -- nothing hangs on the elements of arrays
    simp [Ruleset.selectors, Ruleset.lookup?] at hs
  | some f =>
    obtain ⟨hf, hAnchor⟩ := hBound.isAnchor hs
    have hFirst := hBound.anchor hs
    obtain ⟨type, field, hTypeAt, hType, hFieldAt, hField, -⟩ := Layout.exists_fieldAt hf
    -- the offset that is taken off the position is computed from the rows
    have hOffset : h.layout.fieldOffset t f true =
        field.offset + if type.isValue then 0 else h.layout.objectHeader := by
      rw [Layout.fieldOffset_of_info hType hField]
      cases type.isValue <;> rfl
    have hAt := strictAt_eq hTells hf hFirst (hAnchor.isIn hf) anchor
    simp only [strictFrom, resolveFrom, walkFrom, hFirst, hTypeAt, hFieldAt, ok_bind, ← hOffset, hAt]
    by_cases hBehind : (h.layout.fieldOffset t f true).toNatClampNeg ≤ p.position
    · rw [if_pos hBehind, if_pos hBehind]
      rfl
    · rw [if_neg hBehind, if_neg hBehind]
      rfl

theorem isNull_of_mem_resolveFrom {anchor : Word} {p : Pointer} {s : Selector} {word : Word}
    (hWord : word ∈ h.resolveFrom anchor p s) : word.isNull = false := by
  obtain ⟨met, hMet, hFound⟩ := List.mem_filterMap.mp hWord
  cases met with
  | missing name t => cases hFound
  | found found =>
    rw [Encounter.found?, Option.some.injEq] at hFound
    subst hFound
    unfold walkFrom at hMet
    split at hMet
    · dsimp only at hMet
      split at hMet
      · rw [walkAt_eq] at hMet
        generalize h.root? anchor _ s = root at hMet
        cases root with
        | none => simp at hMet
        | some c => exact isNull_of_found hMet
      · simp at hMet
    · simp at hMet

/-- **Walks from anchors cannot fail.** In a heap whose ruleset is bound on its layout, with objects
that tell types of the layout or none, what is reached from any anchor through the slot of any pointer
is found without a fault, whatever the memory holds: every type and every field that is looked up has
its row, every read is made in a segment or in the storage of a static field. No pointer that is
reached is null. -/
theorem strictReached_eq (hBound : h.ruleset.IsBoundOn h.layout) (hTells : h.TellsTypes)
    (anchor : Word) (p : Pointer) :
    h.strictReached anchor p = .ok (h.reached anchor p) ∧
      (∀ child ∈ h.fused anchor p, child.isNull = false) ∧
      (∀ r ∈ h.owned anchor p, r.child.isNull = false) ∧
      ∀ r ∈ h.tagged anchor p, r.target.isNull = false := by
  have hFrom : ∀ s ∈ h.ruleset.selectors p.slot,
      h.strictFrom anchor p s = .ok (h.resolveFrom anchor p s) :=
    fun s hs => strictFrom_eq hBound hTells hs anchor
  refine ⟨?_, ?_, ?_, ?_⟩
  · -- no walk of the three lists fails
    rw [Ruleset.selectors_eq] at hFrom
    unfold strictReached
    rw [mapM_eq_ok (g := fun a => h.resolveFrom anchor p a.selector), ok_bind,
      mapM_eq_ok (g := fun a => (h.resolveFrom anchor p a.selector).map fun child =>
        ⟨child, anchor, a.weight, a.location⟩), ok_bind,
      mapM_eq_ok (g := fun a => (h.resolveFrom anchor p a.selector).map fun target =>
        ⟨target, a.tags, a.location⟩), ok_bind]
    · rfl
    · intro a ha
      rw [hFrom a.selector (by simp [List.mem_map_of_mem ha]), ok_bind]
      rfl
    · intro a ha
      rw [hFrom a.selector (by simp [List.mem_map_of_mem ha]), ok_bind]
      rfl
    · intro a ha
      exact hFrom a.selector (by simp [List.mem_map_of_mem ha])
  · intro child hChild
    obtain ⟨a, -, hMem⟩ := List.mem_flatMap.mp hChild
    exact isNull_of_mem_resolveFrom hMem
  · intro r hr
    obtain ⟨a, -, hMem⟩ := List.mem_flatMap.mp hr
    obtain ⟨child, hChild, rfl⟩ := List.mem_map.mp hMem
    exact isNull_of_mem_resolveFrom hChild
  · intro r hr
    obtain ⟨a, -, hMem⟩ := List.mem_flatMap.mp hr
    obtain ⟨target, hTarget, rfl⟩ := List.mem_map.mp hMem
    exact isNull_of_mem_resolveFrom hTarget

end Heap

/-! ## A walk that goes in a circle -/

/-- The types that words in headers mark are types of the layout. -/
theorem Layout.lt_count_of_mem_typeWords {L : Layout} {word t : Nat} (h : (word, t) ∈ L.typeWords) :
    t < L.count := by
  obtain ⟨row, hRow, hWord⟩ := List.mem_filterMap.mp h
  obtain ⟨marked, -, hSame⟩ := Option.map_eq_some_iff.mp hWord
  obtain ⟨-, hIndex⟩ := List.mem_zipIdx hRow
  rw [Prod.mk.injEq] at hSame
  simp only [zero_add] at hIndex
  exact hSame.2 ▸ hIndex.1

theorem FixedHeader.lt_count_of_typeOf? {L : Layout} {wordSize : WordSize}
    {typeOffset lengthOffset : Nat} {view : View} {t : Nat}
    (h : (FixedHeader.mk wordSize typeOffset lengthOffset L.typeWords).typeOf? view = some t) :
    t < L.count := by
  unfold typeOf? at h
  split at h
  · next word _ =>
    obtain ⟨before, after, hSplit, -⟩ := List.lookup_eq_some_iff.mp h
    have hWords : L.typeWords = before ++ (word.value, t) :: after := hSplit
    have hMem : (word.value, t) ∈ L.typeWords := by simp [hWords]
    exact Layout.lt_count_of_mem_typeWords hMem
  · cases h

namespace Heap

theorem pairHeap_tellsTypes (rules : List Rule) : (pairHeap rules).TellsTypes :=
  fun _ _ hType => FixedHeader.lt_count_of_typeOf? hType

/-- The walk from the holder over its pair and a node comes back to the holder. -/
theorem strictReached_of_holder :
    (pairHeap [fuseSecond]).strictReached (.ofNat .four 16)
      ⟨.ofNat .four 44, .ofMarks { conditionAnchor := true }, ⟨1, some 1⟩, 12⟩ =
        .ok ⟨[.ofNat .four 16], [], []⟩ := by
  rw [(strictReached_eq (pairHeap_isBoundOn [fuseSecond]) (pairHeap_tellsTypes [fuseSecond]) _ _).1]
  cbv

end Heap

end RefRules
