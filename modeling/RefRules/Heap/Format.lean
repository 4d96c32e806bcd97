import RefRules.View

/-!
# RefRules — object formats

What the bytes of an object tell about it, apart from its fields: the type of an object, and the
length of an array. A `FixedHeader` keeps both in words at fixed offsets.
-/

namespace RefRules

/-- How objects tell their type, and arrays of a type their length. -/
structure ObjectFormat where
  typeOf? : View → Option Nat
  arrayLength : View → Nat → Except MemoryError Nat

/-- Headers with a type word and an array length at fixed offsets, and the types of the words. -/
structure FixedHeader where
  wordSize : WordSize
  typeOffset : Nat
  lengthOffset : Nat
  types : List (Nat × Nat) := []

namespace FixedHeader

/-- The word marks the type from here on. -/
def register (h : FixedHeader) (word type : Nat) : FixedHeader :=
  { h with types := (word, type) :: h.types }

def registerAll (h : FixedHeader) (words : List (Nat × Nat)) : FixedHeader :=
  words.foldl (fun h w => h.register w.1 w.2) h

/-- The type that the type word of an object marks. -/
def typeOf? (h : FixedHeader) (v : View) : Option Nat :=
  match v.readWord h.typeOffset h.wordSize with
  | .ok word => h.types.lookup word.value
  | .error _ => none

def arrayLength (h : FixedHeader) (v : View) : Except MemoryError Nat :=
  (v.readWord h.lengthOffset h.wordSize).map (·.value)

def format (h : FixedHeader) : ObjectFormat where
  typeOf? := h.typeOf?
  arrayLength v _ := h.arrayLength v

end FixedHeader

end RefRules
