import RefRules.Heap.Basic

/-!
# RefRules — walking selectors

A selector is walked from a struct in the heap: each hop leads to fields or to the elements of an
array, each pointer on to the object it points at. Fields of objects lie behind a header, those of
embedded values do not. Main definitions:

* `Heap.hop` — what one hop leads to;
* `Heap.walk` — everything that a walk meets;
* `Heap.resolve`, `Heap.resolveFrom` — the pointers at the end of a selector.
-/

namespace RefRules

/-! ## Places -/

/-- The bytes of an object, with a header, or of an embedded value, without one. -/
structure Cursor where
  view : View
  type : Nat
  hasHeader : Bool

/-- A hop of a walk: a resolved one, or one by name. -/
inductive WalkHop where
  | fixed (hop : StaticHop)
  | named (hop : Hop)

/-- The hops of a selector in their order. -/
def Selector.walkHops (s : Selector) : List WalkHop :=
  s.hops.map .fixed ++ s.tail.map .named

/-- What a hop leads to: an embedded value, a pointer with the type it is declared with, or no field
of that name. -/
inductive Target where
  | value (cursor : Cursor)
  | pointer (word : Word) (declared : Nat)
  | missing (name : String) (type : Nat)

/-- What a walk meets: a pointer at its end, or a type without a field of the next name. -/
inductive Encounter where
  | found (word : Word)
  | missing (name : String) (type : Nat)

def Encounter.found? : Encounter → Option Word
  | found word => some word
  | missing _ _ => none

namespace Heap

/-! ## Hops -/

/-- The value of type `t` in the bytes of a view. -/
def valueIn (view : View) (t : Nat) : Target :=
  .value ⟨view, t, false⟩

/-- What a static field leads to, through its storage. -/
def staticTargets (h : Heap) (t f : Nat) : List Target :=
  let fieldType := h.layout.fieldType t f
  match h.layout.storage? t f with
  | none => []
  | some view =>
    if h.layout.isValue fieldType then [valueIn view fieldType]
    else ((view.readWord 0 h.wordSize).toOption.map fun w => .pointer w fieldType).toList

/-- What a field leads to from a cursor. -/
def fieldTargets (h : Heap) (c : Cursor) (t f : Nat) : List Target :=
  let fieldType := h.layout.fieldType t f
  let position := wrap64 (h.layout.fieldOffset t f c.hasHeader)
  if h.layout.isStatic t f then h.staticTargets t f
  else if h.layout.isValue fieldType then
    let part := c.view.range position (wrap64 (h.layout.size fieldType))
    (part.toOption.map fun view => valueIn view fieldType).toList
  else ((c.view.readWord position h.wordSize).toOption.map fun w => .pointer w fieldType).toList

/-- The element at `position`, when its memory is there. -/
def elementAt? (h : Heap) (view : View) (element stride position : Nat) : Option Target :=
  if h.layout.isValue element then
    (view.range position stride).toOption.map fun part => valueIn part element
  else (view.readWord position h.wordSize).toOption.map fun w => .pointer w element

/-- The `count` elements from number `index` on, until the memory ends. -/
def elementsFrom (h : Heap) (view : View) (element first stride : Nat) :
    Nat → Nat → List Target
  | 0, _ => []
  | count + 1, index =>
    let position := index * stride + first
    if Numeral.limit64 ≤ position then []
    else
      match h.elementAt? view element stride position with
      | none => []
      | some target => target :: h.elementsFrom view element first stride count (index + 1)

/-- The elements of an array of type `t` that are there. -/
def elementTargets (h : Heap) (view : View) (t : Nat) : List Target :=
  match h.layout.element? t with
  | none => []
  | some element =>
    match h.format.arrayLength view t with
    | .error _ => []
    | .ok length =>
      let stride := wrap64 (h.layout.elementSize t)
      if stride = 0 then []
      else h.elementsFrom view element (wrap64 h.layout.arrayHeader) stride length 0

/-- What a hop leads to from a cursor. -/
def hop (h : Heap) (c : Cursor) : WalkHop → List Target
  | .fixed (.field t f) => h.fieldTargets c t f
  | .fixed (.elements t) => h.elementTargets c.view t
  | .named .elements => h.elementTargets c.view c.type
  | .named (.field name) =>
    match h.layout.findField c.type name with
    | some (t, f) => h.fieldTargets c t f
    | none => [.missing name c.type]

/-! ## Walks -/

/-- The object that a pointer points at, of the type it tells or else of the declared one. -/
def follow? (h : Heap) (word : Word) (declared : Nat) : Option Cursor :=
  (h.snapshot.viewAt? word).map fun view =>
    ⟨view, (h.format.typeOf? view).getD declared, true⟩

/-- Everything that the walk of `hops` from a cursor meets, in its order. Null pointers lead
nowhere, and a walk that ends on a value finds nothing. -/
def walk (h : Heap) : List WalkHop → Cursor → List Encounter
  | [], _ => []
  | step :: rest, c =>
    (h.hop c step).flatMap fun target =>
      match target with
      | .missing name t => [.missing name t]
      | .value next => h.walk rest next
      | .pointer word declared =>
        if word.isNull then []
        else if rest.isEmpty then [.found word]
        else
          match h.follow? word declared with
          | none => []
          | some next => h.walk rest next

/-! ## Selectors -/

/-- The hop begins at a static field. -/
def isStaticHop (h : Heap) : StaticHop → Bool
  | .field t f => h.layout.isStatic t f
  | .elements _ => false

/-- The bytes from `start` on in the object at `anchor`. Outside of the snapshot only a static field
is a place to begin. -/
def rootView? (h : Heap) (anchor : Word) (start : Nat) (first : StaticHop) : Option View :=
  match h.snapshot.viewAt? anchor with
  | some view => (view.tail start).toOption
  | none => if h.isStaticHop first then some .invalid else none

/-- What a selector meets from `start` on in the object at `anchor`. -/
def walkAt (h : Heap) (anchor : Word) (start : Nat) (s : Selector) : List Encounter :=
  match s.anchor? with
  | none => []
  | some first =>
    match h.rootView? anchor start first with
    | none => []
    | some view => h.walk s.walkHops ⟨view, first.type, !h.layout.isValue first.type⟩

/-- What a selector meets from the struct that holds the slot of a pointer: the object at `anchor`,
or a value embedded in it. -/
def walkFrom (h : Heap) (anchor : Word) (p : Pointer) (s : Selector) : List Encounter :=
  match s.anchor? with
  | some (.field t f) =>
    let offset := (h.layout.fieldOffset t f true).toNatClampNeg
    if offset ≤ p.position then h.walkAt anchor (p.position - offset) s else []
  | _ => []

/-- The pointers at the end of a selector that begins at the object at `anchor`; a value there is
boxed. -/
def resolve (h : Heap) (anchor : Word) (s : Selector) : Except HeapError (List Word) :=
  match s.anchor? with
  | none => .ok []
  | some first =>
    if first.type < h.layout.count then
      let start := if h.layout.isValue first.type then wrap64 h.layout.objectHeader else 0
      .ok ((h.walkAt anchor start s).filterMap Encounter.found?)
    else .error (.invalidType first.type)

/-- The pointers at the end of a selector that is anchored on the slot of a pointer. -/
def resolveFrom (h : Heap) (anchor : Word) (p : Pointer) (s : Selector) : List Word :=
  (h.walkFrom anchor p s).filterMap Encounter.found?

/-! ## Anchors -/

/-- A target that `parent` owns, or holds weakly, with a weight. -/
structure WeightedReference where
  child : Word
  parent : Word
  weight : Int
  location : Location

/-- A target with its tags. -/
structure TaggedReference where
  target : Word
  tags : List String
  location : Location

/-- What is fused with the object at `anchor` through the slot of a pointer. -/
def fused (h : Heap) (anchor : Word) (p : Pointer) : List Word :=
  (h.ruleset.conditions p.slot).flatMap fun a => h.resolveFrom anchor p a.selector

/-- What the object at `anchor` owns through the slot of a pointer. -/
def owned (h : Heap) (anchor : Word) (p : Pointer) : List WeightedReference :=
  (h.ruleset.weights p.slot).flatMap fun a =>
    (h.resolveFrom anchor p a.selector).map fun child => ⟨child, anchor, a.weight, a.location⟩

/-- What gets tags through the slot of a pointer. -/
def tagged (h : Heap) (anchor : Word) (p : Pointer) : List TaggedReference :=
  (h.ruleset.tags p.slot).flatMap fun a =>
    (h.resolveFrom anchor p a.selector).map fun target => ⟨target, a.tags, a.location⟩

end Heap

end RefRules
