import RefRules.Proofs.Anchors

/-!
# RefRules — strict walks

A walk looks types and fields up by numbers that nothing checks, and it reads memory wherever pointers
lead. A strict walk goes the same way, but each of its lookups has to meet a row of its table, and each
of its reads has to be made within a segment or the storage of a static field: it fails where that is
not so. Main definitions:

* `Layout.typeAt`, `Layout.fieldAt` — the rows of a type and of a field;
* `Heap.requireMemory` — the bytes of a view may be read;
* `Heap.strictWalk`, `Heap.strictReached` — strict walks, and what they reach through a slot.
-/

namespace RefRules

/-! ## Lookups that can fail -/

/-- What a walk must not do. -/
inductive WalkFault where
  | noType (type : Nat)
  | noField (type field : Nat)
  | noSlot (type : Nat)
  | outside (offset size : Nat)
  deriving DecidableEq

namespace Layout

/-- The row of a type, which there has to be. -/
def typeAt (L : Layout) (t : Nat) : Except WalkFault TypeInfo :=
  match L.types[t]? with
  | some type => .ok type
  | none => .error (.noType t)

/-- The row of a field, which there has to be. -/
def fieldAt (L : Layout) (t f : Nat) : Except WalkFault FieldInfo := do
  let type ← L.typeAt t
  match type.fields[f]? with
  | some field => .ok field
  | none => .error (.noField t f)

/-- The search for a field along the base types, each of which there has to be. -/
def strictFindFrom (L : Layout) (name : String) :
    Nat → Nat → Except WalkFault (Option (Nat × Nat))
  | 0, _ => .ok none
  | fuel + 1, t => do
    let type ← L.typeAt t
    match type.fields.findIdx? fun f => f.name == name with
    | some f => return some (t, f)
    | none =>
      match type.base? with
      | none => return none
      | some base => L.strictFindFrom name fuel base

end Layout

/-! ## Memory -/

/-- The view shows a part of what another shows. -/
def View.isPartOf : View → View → Bool
  | .window v, .window w =>
    v.store == w.store && decide (w.offset ≤ v.offset ∧ v.offset + v.size ≤ w.offset + w.size)
  | _, _ => false

namespace Heap

/-- The storages of the static fields of a type. -/
def storagesOf (t : TypeInfo) : List View :=
  t.fields.filterMap fun f => if f.isStatic then f.storage.map View.whole else none

/-- The memory that walks may read: the segments, and the storages of static fields. -/
def regions (h : Heap) : List View :=
  h.snapshot.segments.toList.map (·.view) ++ h.layout.types.flatMap storagesOf

/-- The view has no bytes at all, or shows a part of the memory. -/
def isMemory (h : Heap) (view : View) : Bool :=
  !view.isValid || h.regions.any view.isPartOf

/-- The bytes of a view may be read. -/
def requireMemory (h : Heap) (view : View) : Except WalkFault Unit :=
  if h.isMemory view then .ok () else .error (.outside view.offset view.size)

/-! ## Strict walks -/

/-- The word at a position, when it lies within the view. -/
def strictWord (h : Heap) (view : View) (position : Nat) : Except WalkFault (Option Word) := do
  h.requireMemory view
  return (view.readWord position h.wordSize).toOption

/-- What a field leads to. -/
def strictField (h : Heap) (c : Cursor) (t f : Nat) : Except WalkFault (List Target) := do
  let owner ← h.layout.typeAt t
  let field ← h.layout.fieldAt t f
  let type ← h.layout.typeAt field.type
  if field.isStatic then
    match field.storage with
    | none => return []
    | some store =>
      if type.isValue then return [valueIn (.whole store) field.type]
      else
        let word ← h.strictWord (.whole store) 0
        return (word.map fun w => .pointer w field.type).toList
  else
    let header := if c.hasHeader && !owner.isValue then h.layout.objectHeader else 0
    let position := wrap64 (field.offset + header)
    if type.isValue then
      h.requireMemory c.view
      let part := c.view.range position (wrap64 type.size)
      return (part.toOption.map fun view => valueIn view field.type).toList
    else
      let word ← h.strictWord c.view position
      return (word.map fun w => .pointer w field.type).toList

/-- The elements of an array of type `t`. The row of the elements' type is looked up once for all. -/
def strictElements (h : Heap) (view : View) (t : Nat) : Except WalkFault (List Target) := do
  let array ← h.layout.typeAt t
  match array.element? with
  | none => return []
  | some e =>
    let element ← h.layout.typeAt e
    h.requireMemory view
    match h.format.arrayLength view t with
    | .error _ => return []
    | .ok length =>
      let stride := wrap64 (if element.isValue then element.size else .ofNat h.layout.wordSize.bytes)
      return if stride = 0 then []
        else h.elementsFrom view e (wrap64 h.layout.arrayHeader) stride length 0

/-- What a hop leads to from a cursor. -/
def strictHop (h : Heap) (c : Cursor) : WalkHop → Except WalkFault (List Target)
  | .fixed (.field t f) => h.strictField c t f
  | .fixed (.elements t) => h.strictElements c.view t
  | .named .elements => h.strictElements c.view c.type
  | .named (.field name) => do
    match ← h.layout.strictFindFrom name (h.layout.count + 1) c.type with
    | some (t, f) => h.strictField c t f
    | none => return [.missing name c.type]

/-- The object that a pointer points at; its type is read in its memory. -/
def strictFollow (h : Heap) (word : Word) (declared : Nat) : Except WalkFault (Option Cursor) :=
  match h.snapshot.viewAt? word with
  | none => .ok none
  | some view => do
    h.requireMemory view
    return some ⟨view, (h.format.typeOf? view).getD declared, true⟩

/-- Everything that a walk meets. A missing name is reported with the name of its type. -/
def strictWalk (h : Heap) : List WalkHop → Cursor → Except WalkFault (List Encounter)
  | [], _ => .ok []
  | step :: rest, c => do
    let targets ← h.strictHop c step
    let met ← targets.mapM fun target =>
      match target with
      | .missing name t => do
        let _ ← h.layout.typeAt t
        return [.missing name t]
      | .value next => h.strictWalk rest next
      | .pointer word declared => do
        if word.isNull then return []
        else if rest.isEmpty then return [.found word]
        else
          match ← h.strictFollow word declared with
          | none => return []
          | some next => h.strictWalk rest next
    return met.flatten

/-- The bytes from `start` on in the object at `anchor`, or none for a static field outside of the
snapshot. -/
def strictRoot (h : Heap) (anchor : Word) (start : Nat) (field : FieldInfo) : Option View :=
  match h.snapshot.viewAt? anchor with
  | some view => (view.tail start).toOption
  | none => if field.isStatic then some .invalid else none

/-- What a selector that begins at a field meets from `start` on in the object at `anchor`. -/
def strictAt (h : Heap) (anchor : Word) (start t f : Nat) (s : Selector) :
    Except WalkFault (List Encounter) := do
  let type ← h.layout.typeAt t
  let field ← h.layout.fieldAt t f
  match h.strictRoot anchor start field with
  | none => return []
  | some view => h.strictWalk s.walkHops ⟨view, t, !type.isValue⟩

/-- The pointers at the end of a selector that is anchored on the slot of a pointer. -/
def strictFrom (h : Heap) (anchor : Word) (p : Pointer) (s : Selector) :
    Except WalkFault (List Word) :=
  match s.anchor? with
  | none => .ok []
  | some (.elements t) => .error (.noSlot t)
  | some (.field t f) => do
    let type ← h.layout.typeAt t
    let field ← h.layout.fieldAt t f
    let header := if type.isValue then 0 else h.layout.objectHeader
    let offset := (field.offset + header).toNatClampNeg
    if offset ≤ p.position then
      let met ← h.strictAt anchor (p.position - offset) t f s
      return met.filterMap Encounter.found?
    else return []

/-- What is reached through the slot of a pointer from `anchor`. -/
def strictReached (h : Heap) (anchor : Word) (p : Pointer) : Except WalkFault Reached := do
  let fused ← (h.ruleset.conditions p.slot).mapM fun a => h.strictFrom anchor p a.selector
  let owned ← (h.ruleset.weights p.slot).mapM fun a => do
    let children ← h.strictFrom anchor p a.selector
    return children.map fun child => ⟨child, anchor, a.weight, a.location⟩
  let tagged ← (h.ruleset.tags p.slot).mapM fun a => do
    let targets ← h.strictFrom anchor p a.selector
    return targets.map fun target => ⟨target, a.tags, a.location⟩
  return ⟨fused.flatten, owned.flatten, tagged.flatten⟩

end Heap

end RefRules
