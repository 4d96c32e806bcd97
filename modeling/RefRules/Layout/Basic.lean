import RefRules.Files
import RefRules.Layout.Description

/-!
# RefRules — type layouts

A `Layout` lists the types of a program: their fields with offsets, their base types, and for
arrays the type of the elements. Offsets and sizes are numbers of 32 bits, and so are their sums:
one that does not fit wraps. Types are numbered from zero; every number in a layout names a
type of it, and the base types of a type come to an end.

Main definitions and results:

* `Layout.ofDescription` — the layout of a description, or its first fault;
* `Layout.findField` — a field of a type or of the nearest base type that declares it;
* `faultOf_eq_none` — a description without fault describes a sound table of types.
-/

namespace RefRules

/-! ## Types -/

structure FieldInfo where
  name : String
  type : Nat
  offset : Int32
  isStatic : Bool
  storage : Option Store

/-- A type. `related` is the base type, or for an array the type of its elements. -/
structure TypeInfo where
  assembly : String
  name : String
  isValue : Bool
  isArray : Bool
  related : Option Nat
  size : Int32
  fields : List FieldInfo
  word : Option Nat

/-- The base type; an array has none. -/
def TypeInfo.base? (t : TypeInfo) : Option Nat :=
  if t.isArray then none else t.related

/-- The type of the elements; only an array has one. -/
def TypeInfo.element? (t : TypeInfo) : Option Nat :=
  if t.isArray then t.related else none

/-- Every type that the type refers to is one of `count` types, and an array has elements. -/
def TypeInfo.isClosed (count : Nat) (t : TypeInfo) : Bool :=
  t.related.all (· < count) && t.fields.all (·.type < count) && (!t.isArray || t.related.isSome)

/-- The base types of type `t` end after fewer than `n` steps. -/
def endsWithin (types : List TypeInfo) : Nat → Nat → Bool
  | 0, _ => false
  | n + 1, t =>
    match (types[t]?).bind TypeInfo.base? with
    | none => true
    | some base => endsWithin types n base

/-- Every type is closed, and its base types come to an end. -/
def isSound (types : List TypeInfo) : Bool :=
  types.all (TypeInfo.isClosed types.length) &&
    (List.range types.length).all (endsWithin types (types.length + 1))

/-! ## Faults -/

/-- Why there is no layout. -/
inductive LayoutError where
  | unreadable (cause : FileError)
  | syntaxError
  | memory (cause : MemoryError)
  | unknownType (type : Nat) (referenced : Int)
  | noElementType (name : String)
  | cyclicBase (name : String)
  deriving DecidableEq

def LayoutError.message : LayoutError → String
  | unreadable cause => s!"IO error: {cause.message}"
  | syntaxError => "Parse error: not a layout description"
  | memory cause => s!"Memory error: {cause.message}"
  | unknownType type referenced => s!"Type {type} references unknown type index {referenced}"
  | noElementType name => s!"Validation failed: array type {name} has no element type"
  | cyclicBase name => s!"Validation failed: base type chain of {name} is cyclic"

/-- A reference from type `i` to a type that is none of `count`. -/
def referenceFault? (count i : Nat) (referenced : Int) : Option LayoutError :=
  if 0 ≤ referenced ∧ referenced < count then none else some (.unknownType i referenced)

namespace TypeDescription

def elementFault? (t : TypeDescription) : Option LayoutError :=
  if t.isArray && t.base.isNone then some (.noElementType t.name) else none

/-- The first fault of type `i` among `count` types, base types of base types apart. -/
def fault? (count i : Nat) (t : TypeDescription) : Option LayoutError :=
  (t.base.bind (referenceFault? count i)).or
    (t.elementFault?.or (t.fields.findSome? fun f => referenceFault? count i f.type))

def fieldInfo (f : FieldDescription) : FieldInfo where
  name := f.name
  type := f.type.toNat
  offset := f.offset
  isStatic := f.isStatic
  storage := if f.isStatic then f.staticData.map List.toArray else none

def info (t : TypeDescription) : TypeInfo where
  assembly := t.assembly
  name := t.name
  isValue := t.isValue
  isArray := t.isArray
  related := t.base.map Int.toNat
  size := t.size
  fields := t.fields.map fieldInfo
  word := t.typeWord

end TypeDescription

/-- The first type whose base types do not end. -/
def cycleFault? (types : List TypeInfo) : Option LayoutError :=
  (types.zipIdx.find? fun t => !endsWithin types (types.length + 1) t.2).map
    fun t => .cyclicBase t.1.name

/-- The first fault of the types of a description. -/
def faultOf (types : List TypeDescription) : Option LayoutError :=
  (types.zipIdx.findSome? fun t => t.1.fault? types.length t.2).or
    (cycleFault? (types.map TypeDescription.info))

theorem referenceFault?_eq_none_iff {count i : Nat} {r : Int} :
    referenceFault? count i r = none ↔ 0 ≤ r ∧ r < count := by
  simp [referenceFault?]

/-- A type without fault refers to nothing outside of the table. -/
theorem isClosed_info_of_fault {count i : Nat} {t : TypeDescription}
    (h : t.fault? count i = none) : t.info.isClosed count = true := by
  simp only [TypeDescription.fault?, Option.or_eq_none_iff] at h
  obtain ⟨hBase, hElement, hFields⟩ := h
  simp only [TypeInfo.isClosed, TypeDescription.info, Bool.and_eq_true]
  refine ⟨⟨?_, ?_⟩, ?_⟩
  · cases hb : t.base with
    | none => rfl
    | some b =>
      rw [hb, Option.bind_some, referenceFault?_eq_none_iff] at hBase
      simp only [Option.map_some, Option.all_some, decide_eq_true_eq]
      omega
  · rw [List.all_map, List.all_eq_true]
    intro f hf
    have := List.findSome?_eq_none_iff.mp hFields f hf
    rw [referenceFault?_eq_none_iff] at this
    have hlt : f.type.toNat < count := by omega
    exact decide_eq_true hlt
  · simp only [TypeDescription.elementFault?] at hElement
    cases ha : t.isArray <;> cases hb : t.base <;> simp_all

/-- A description without fault describes a sound table. -/
theorem faultOf_eq_none {types : List TypeDescription} (h : faultOf types = none) :
    isSound (types.map TypeDescription.info) = true := by
  simp only [faultOf, Option.or_eq_none_iff] at h
  obtain ⟨hTypes, hCycle⟩ := h
  simp only [isSound, Bool.and_eq_true, List.length_map]
  constructor
  · rw [List.all_map, List.all_eq_true]
    intro t ht
    obtain ⟨i, hi, rfl⟩ := List.mem_iff_getElem.mp ht
    exact isClosed_info_of_fault
      (List.findSome?_eq_none_iff.mp hTypes (types[i], i)
        (List.mem_iff_getElem.mpr ⟨i, by simpa using hi, by simp⟩))
  · simp only [cycleFault?, Option.map_eq_none_iff, List.find?_eq_none, List.length_map] at hCycle
    rw [List.all_eq_true]
    intro i hi
    have hlt : i < (types.map TypeDescription.info).length := by simpa using hi
    simpa using hCycle ((types.map TypeDescription.info)[i], i)
      (List.mem_iff_getElem.mpr ⟨i, by simpa using hlt, by simp⟩)

/-! ## Layouts -/

/-- The types of a program and the sizes that they are laid out by. -/
structure Layout where
  wordSize : WordSize
  objectHeader : Int32
  arrayHeader : Int32
  types : List TypeInfo
  sound : isSound types = true

namespace Layout

/-- The layout of a description. -/
def ofDescription (d : LayoutDescription) : Except LayoutError Layout :=
  match WordSize.ofBytes d.pointerSize with
  | .error cause => .error (.memory cause)
  | .ok wordSize =>
    match h : faultOf d.types with
    | some fault => .error fault
    | none => .ok {
        wordSize := wordSize
        objectHeader := d.objectHeader
        arrayHeader := d.arrayHeader
        types := d.types.map TypeDescription.info
        sound := faultOf_eq_none h }

/-- The layout that a JSON value describes. -/
def ofJson (j : Json) : Except LayoutError Layout :=
  match LayoutDescription.ofJson? j with
  | some d => ofDescription d
  | none => .error .syntaxError

/-- The layout that a JSON text describes. -/
def ofText (text : String) : Except LayoutError Layout :=
  match Json.parse text with
  | some j => ofJson j
  | none => .error .syntaxError

/-- The layout that a file describes. -/
def load (fs : Files) (p : Path) : Except LayoutError Layout :=
  match fs.readText p with
  | .ok text => ofText text
  | .error cause => .error (.unreadable cause)

/-! ## Types and fields -/

def count (L : Layout) : Nat :=
  L.types.length

/-- The type of a number that may come from outside. -/
def index? (L : Layout) (type : Int) : Option Nat :=
  if 0 ≤ type ∧ type < L.count then some type.toNat else none

def name (L : Layout) (t : Nat) : String :=
  (L.types[t]?).elim "" (·.name)

def assembly (L : Layout) (t : Nat) : String :=
  (L.types[t]?).elim "" (·.assembly)

def isValue (L : Layout) (t : Nat) : Bool :=
  (L.types[t]?).any (·.isValue)

def isArray (L : Layout) (t : Nat) : Bool :=
  (L.types[t]?).any (·.isArray)

def size (L : Layout) (t : Nat) : Int32 :=
  (L.types[t]?).elim 0 (·.size)

def related? (L : Layout) (t : Nat) : Option Nat :=
  (L.types[t]?).bind (·.related)

def base? (L : Layout) (t : Nat) : Option Nat :=
  (L.types[t]?).bind TypeInfo.base?

def element? (L : Layout) (t : Nat) : Option Nat :=
  (L.types[t]?).bind TypeInfo.element?

def fields (L : Layout) (t : Nat) : List FieldInfo :=
  (L.types[t]?).elim [] (·.fields)

/-- Only a type that there is has fields. -/
theorem lt_count_of_lt_fields {L : Layout} {t f : Nat} (h : f < (L.fields t).length) :
    t < L.count := by
  refine Nat.lt_of_not_le fun hOut => ?_
  have hNone : L.types[t]? = none := List.getElem?_eq_none hOut
  simp [fields, hNone] at h

def field? (L : Layout) (t f : Nat) : Option FieldInfo :=
  (L.fields t)[f]?

def fieldName (L : Layout) (t f : Nat) : String :=
  (L.field? t f).elim "" (·.name)

def fieldType (L : Layout) (t f : Nat) : Nat :=
  (L.field? t f).elim 0 (·.type)

def isStatic (L : Layout) (t f : Nat) : Bool :=
  (L.field? t f).any (·.isStatic)

/-- The storage of a static field, outside of the heap. -/
def storage? (L : Layout) (t f : Nat) : Option View :=
  ((L.field? t f).bind (·.storage)).map View.whole

/-- The offset of a field. On a reference type it counts from the end of the header, unless it is
asked for with the header. -/
def fieldOffset (L : Layout) (t f : Nat) (withHeader : Bool) : Int32 :=
  let offset := (L.field? t f).elim 0 (·.offset)
  if withHeader && !L.isValue t then offset + L.objectHeader else offset

/-- The distance between the elements of an array: the size of a value, or of a pointer. -/
def elementSize (L : Layout) (t : Nat) : Int32 :=
  match L.related? t with
  | some element => if L.isValue element then L.size element else .ofNat L.wordSize.bytes
  | none => .ofNat L.wordSize.bytes

/-! ## Names -/

/-- The first field of a name that the type itself declares. -/
def findDeclared (L : Layout) (t : Nat) (name : String) : Option Nat :=
  (L.fields t).findIdx? fun f => f.name == name

/-- Looks for a field on a type and along its base types, `fuel` types in all. -/
def findFrom (L : Layout) (name : String) : Nat → Nat → Option (Nat × Nat)
  | 0, _ => none
  | fuel + 1, t =>
    match L.findDeclared t name with
    | some f => some (t, f)
    | none => (L.base? t).bind (findFrom L name fuel)

/-- The field of a name on the type or on the nearest base type that declares it, with the type that
does. -/
def findField (L : Layout) (t : Nat) (name : String) : Option (Nat × Nat) :=
  L.findFrom name (L.count + 1) t

/-- A field by its type's name; what is no field stands for the elements. -/
def describeField (L : Layout) (t : Nat) (f : Option Nat) : String :=
  match f.bind (L.field? t) with
  | some field => L.name t ++ "." ++ field.name
  | none => L.name t ++ "[]"

/-- The type words with the types that they mark, in the order of the types. -/
def typeWords (L : Layout) : List (Nat × Nat) :=
  L.types.zipIdx.filterMap fun t => t.1.word.map fun word => (word, t.2)

end Layout

end RefRules
