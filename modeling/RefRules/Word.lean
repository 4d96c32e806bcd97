import RefRules.Numeral

/-!
# RefRules — native words

A snapshot comes from a process whose pointers have four or eight bytes. A `Word` is an
unsigned number of that width: it carries the width and the proof that the value fits.

Arithmetic with a plain number wraps at the width; arithmetic between two words needs equal
widths. Order looks at the value alone.
-/

namespace RefRules

/-! ## Widths -/

/-- Number of bytes in a pointer. -/
inductive WordSize where
  | four
  | eight
  deriving DecidableEq, Repr

namespace WordSize

def bytes : WordSize → Nat
  | four => 4
  | eight => 8

/-- The number of values of this width: the first number that does not fit. -/
def limit : WordSize → Nat
  | four => Numeral.limit32
  | eight => Numeral.limit64

/-- The largest value of this width. -/
def mask (s : WordSize) : Nat :=
  s.limit - 1

def ofBytes? : Nat → Option WordSize
  | 4 => some four
  | 8 => some eight
  | _ => none

def text (s : WordSize) : String :=
  s!"{s.bytes}-byte"

theorem limit_pos (s : WordSize) : 0 < s.limit := by
  cases s <;> decide

theorem ofBytes?_bytes (s : WordSize) : ofBytes? s.bytes = some s := by
  cases s <;> rfl

theorem ofBytes?_eq_some_iff {n : Nat} {s : WordSize} : ofBytes? n = some s ↔ n = s.bytes := by
  constructor
  · intro h
    unfold ofBytes? at h
    split at h <;> simp_all [bytes]
    · subst h; rfl
    · subst h; rfl
  · rintro rfl
    exact ofBytes?_bytes s

end WordSize

/-! ## Words -/

/-- An unsigned number of a pointer's width. -/
structure Word where
  size : WordSize
  value : Nat
  fits : value < size.limit
  deriving DecidableEq

/-- The number that little-endian `bytes` stand for. -/
def littleEndian (bytes : List UInt8) : Nat :=
  bytes.foldr (fun b n => b.toNat + 256 * n) 0

namespace Word

/-- The low bits of `n`, as many as the width has. -/
def ofNat (size : WordSize) (n : Nat) : Word :=
  ⟨size, n % size.limit, Nat.mod_lt _ size.limit_pos⟩

def zero (size : WordSize) : Word :=
  ofNat size 0

def isNull (w : Word) : Bool :=
  w.value == 0

/-- Adds a plain number, wrapping at the width. -/
def add (w : Word) (n : Nat) : Word :=
  ofNat w.size (w.value + n)

/-- Subtracts a plain number, wrapping at the width. -/
def sub (w : Word) (n : Nat) : Word :=
  ofNat w.size (w.value + (w.size.limit - n % w.size.limit))

/-- The sum of two words of one width, when it fits that width. -/
def add? (a b : Word) : Option Word :=
  if a.size = b.size ∧ a.value + b.value < a.size.limit then
    some (ofNat a.size (a.value + b.value))
  else
    none

/-- The wrapped difference of two words of one width. -/
def sub? (a b : Word) : Option Word :=
  if a.size = b.size then some (a.sub b.value) else none

/-- How many bytes `w` lies above `base`, when it does not lie below. -/
def offsetFrom? (w base : Word) : Option Nat :=
  if base.value ≤ w.value then some (w.value - base.value) else none

/-- The word in the first bytes of `bytes`, little-endian. -/
def decode (size : WordSize) (bytes : List UInt8) : Word :=
  ofNat size (littleEndian (bytes.take size.bytes))

/-- `0x` and all digits of the width. -/
def text (w : Word) : String :=
  Numeral.hexPadded (2 * w.size.bytes) w.value

instance : LT Word := ⟨fun a b => a.value < b.value⟩
instance : LE Word := ⟨fun a b => a.value ≤ b.value⟩
instance (a b : Word) : Decidable (a < b) := inferInstanceAs (Decidable (a.value < b.value))
instance (a b : Word) : Decidable (a ≤ b) := inferInstanceAs (Decidable (a.value ≤ b.value))

theorem lt_iff {a b : Word} : a < b ↔ a.value < b.value := Iff.rfl

theorem le_iff {a b : Word} : a ≤ b ↔ a.value ≤ b.value := Iff.rfl

@[simp] theorem size_ofNat (s : WordSize) (n : Nat) : (ofNat s n).size = s := rfl

@[simp] theorem value_ofNat (s : WordSize) (n : Nat) : (ofNat s n).value = n % s.limit := rfl

/-- A number that fits is kept as it is. -/
theorem value_ofNat_of_lt {s : WordSize} {n : Nat} (h : n < s.limit) : (ofNat s n).value = n :=
  Nat.mod_eq_of_lt h

end Word

/-- A signed number of 32 bits as the 64-bit position it stands for: a negative one wraps to the
top. -/
def wrap64 (i : Int32) : Nat :=
  (i.toInt % (Numeral.limit64 : Int)).toNat

theorem wrap64_lt (i : Int32) : wrap64 i < Numeral.limit64 :=
  (Int.toNat_lt (Int.emod_nonneg _ (by decide))).mpr (Int.emod_lt_of_pos _ (by decide))

theorem wrap64_of_nonneg {i : Int32} (h : 0 ≤ i.toInt) : wrap64 i = i.toInt.toNat :=
  congrArg Int.toNat (Int.emod_eq_of_lt h (Int.lt_trans i.toInt_lt (by decide)))

end RefRules
