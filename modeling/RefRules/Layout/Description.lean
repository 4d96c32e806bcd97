import RefRules.Json.Reader

/-!
# RefRules — layout descriptions

The description of a program's types as it is exchanged in JSON. An object may be written as the
array of its values, in the order of the keys; keys with a default may be missing, and in an
array the values at the end. Main definition:

* `LayoutDescription.ofJson?` — reads a description.
-/

namespace RefRules

/-! ## Records -/

namespace Json

/-- The values of the keys `keys`, each at most once. In an array the values stand in the order of
the keys, and there are not more. -/
def record? (keys : List String) : Json → Option (List (Option Json))
  | object members =>
    keys.mapM fun key =>
      match members.filter fun m => m.1 == key with
      | [] => some none
      | [m] => some (some m.2)
      | _ => none
  | array items =>
    if items.length ≤ keys.length then
      some (items.map some ++ List.replicate (keys.length - items.length) none)
    else none
  | _ => none

def int32? (j : Json) : Option Int32 :=
  (j.int?.filter Numeral.isInt32).map Int32.ofInt

/-- The number of a type. -/
def typeNumber? (j : Json) : Option Int :=
  j.int32?.map Int32.toInt

/-- An integer that is not negative and below `limit`. -/
def natBelow? (limit : Nat) (j : Json) : Option Nat :=
  (j.int?.filter fun (n : Int) => 0 ≤ n && n < (limit : Int)).map Int.toNat

def nat64? : Json → Option Nat :=
  natBelow? Numeral.limit64

def byte? (j : Json) : Option UInt8 :=
  (natBelow? 256 j).map UInt8.ofNat

def listOf? {α : Type} (item? : Json → Option α) (j : Json) : Option (List α) :=
  j.array?.bind fun items => items.mapM item?

/-- A value that may be `null`. -/
def nullable? {α : Type} (value? : Json → Option α) : Json → Option (Option α)
  | null => some none
  | j => (value? j).map some

/-- A key without a default. -/
def required {α : Type} (value? : Json → Option α) (slot : Option Json) : Option α :=
  slot.bind value?

/-- A key with a default. -/
def withDefault {α : Type} (fallback : α) (value? : Json → Option α) : Option Json → Option α
  | none => some fallback
  | some j => value? j

end Json

/-! ## Descriptions -/

structure FieldDescription where
  name : String
  type : Int
  offset : Int32 := 0
  isStatic : Bool := false
  staticData : Option (List UInt8) := none

structure TypeDescription where
  assembly : String
  name : String
  base : Option Int := none
  isValue : Bool := false
  isArray : Bool := false
  size : Int32 := 0
  fields : List FieldDescription := []
  typeWord : Option Nat := none

structure LayoutDescription where
  pointerSize : Nat
  objectHeader : Int32
  arrayHeader : Int32
  types : List TypeDescription := []

open Json

def FieldDescription.ofJson? (j : Json) : Option FieldDescription := do
  match ← j.record? ["name", "type", "offset", "is_static", "static_data"] with
  | [name, type, offset, isStatic, staticData] =>
    return {
      name := ← required string? name
      type := ← required typeNumber? type
      offset := ← withDefault 0 int32? offset
      isStatic := ← withDefault false bool? isStatic
      staticData := ← withDefault none (nullable? (listOf? byte?)) staticData }
  | _ => none

def TypeDescription.ofJson? (j : Json) : Option TypeDescription := do
  match ← j.record?
    ["assembly", "name", "base", "value_type", "array", "size", "fields", "type_word"] with
  | [assembly, name, base, isValue, isArray, size, fields, typeWord] =>
    return {
      assembly := ← required string? assembly
      name := ← required string? name
      base := ← withDefault none (nullable? typeNumber?) base
      isValue := ← withDefault false bool? isValue
      isArray := ← withDefault false bool? isArray
      size := ← withDefault 0 int32? size
      fields := ← withDefault [] (listOf? FieldDescription.ofJson?) fields
      typeWord := ← withDefault none (nullable? nat64?) typeWord }
  | _ => none

def LayoutDescription.ofJson? (j : Json) : Option LayoutDescription := do
  match ← j.record? ["pointer_size", "object_header_size", "array_header_size", "types"] with
  | [pointerSize, objectHeader, arrayHeader, types] =>
    return {
      pointerSize := ← required nat64? pointerSize
      objectHeader := ← required int32? objectHeader
      arrayHeader := ← required int32? arrayHeader
      types := ← withDefault [] (listOf? TypeDescription.ofJson?) types }
  | _ => none

end RefRules
