import RefRules.Word

/-!
# RefRules — views of snapshot memory

The bytes of a snapshot live in a `Store`. A `View` is a window of a store that lies inside it,
or no window at all (`View.invalid`). Ranges and tails of views are views, and every read is
checked against the window's own size.
-/

namespace RefRules

/-- Read-only bytes of a snapshot. -/
abbrev Store := Array UInt8

/-- Why a read of memory fails. -/
inductive MemoryError where
  | outOfRange (offset size limit : Nat)
  | invalidView
  | widthMismatch (left right : WordSize)
  | unsupportedWordSize (bytes : Nat)
  deriving DecidableEq

def MemoryError.message : MemoryError → String
  | .outOfRange offset size limit =>
    s!"Out of range: {size} bytes at offset {Numeral.hex offset} " ++
      s!"exceed backing store of {limit} bytes"
  | .invalidView => "Read from an invalid memory view"
  | .widthMismatch left right =>
    s!"Native word width mismatch: {left.bytes} vs {right.bytes} bytes"
  | .unsupportedWordSize bytes => s!"Unsupported native size: {bytes} bytes"

/-- The width of `n` bytes, when pointers can have it. -/
def WordSize.ofBytes (n : Nat) : Except MemoryError WordSize :=
  match ofBytes? n with
  | some s => .ok s
  | none => .error (.unsupportedWordSize n)

/-- The wrapped difference of two words, which must have one width. -/
def Word.difference (a b : Word) : Except MemoryError Word :=
  match a.sub? b with
  | some w => .ok w
  | none => .error (.widthMismatch a.size b.size)

/-! ## Windows -/

/-- A part of a store. -/
structure Window where
  store : Store
  offset : Nat
  size : Nat
  inside : offset + size ≤ store.size

/-- A window of a store, or a view of nothing. -/
inductive View where
  | invalid
  | window (w : Window)

/-- That `size` bytes at `offset` end within `limit`. -/
def checkRange (offset size limit : Nat) : Except MemoryError Unit :=
  if offset + size ≤ limit then .ok () else .error (.outOfRange offset size limit)

namespace View

/-- The view of `size` bytes of `store` from `offset`. -/
def ofStore (store : Store) (offset size : Nat) : Except MemoryError View :=
  if h : offset + size ≤ store.size then
    .ok (window ⟨store, offset, size, h⟩)
  else
    .error (.outOfRange offset size store.size)

/-- The view of a whole store. -/
def whole (store : Store) : View :=
  window ⟨store, 0, store.size, by omega⟩

def isValid : View → Bool
  | invalid => false
  | window _ => true

def offset : View → Nat
  | invalid => 0
  | window w => w.offset

def size : View → Nat
  | invalid => 0
  | window w => w.size

/-- The bytes under the view. -/
def bytes : View → List UInt8
  | invalid => []
  | window w => (w.store.extract w.offset (w.offset + w.size)).toList

/-! ## Parts -/

/-- The part of `size` bytes at `position`. -/
def range (v : View) (position size : Nat) : Except MemoryError View :=
  match v with
  | invalid => .error .invalidView
  | window w =>
    if h : position + size ≤ w.size then
      .ok (window ⟨w.store, w.offset + position, size, by have := w.inside; omega⟩)
    else
      .error (.outOfRange position size w.size)

/-- The part from `position` to the end. -/
def tail (v : View) (position : Nat) : Except MemoryError View :=
  if position ≤ v.size then v.range position (v.size - position) else v.range position 0

/-! ## Reads -/

/-- The `size` bytes at `position`. -/
def read (v : View) (position size : Nat) : Except MemoryError (List UInt8) :=
  match v with
  | invalid => .error .invalidView
  | window w =>
    if position + size ≤ w.size then
      let start := w.offset + position
      .ok (w.store.extract start (start + size)).toList
    else
      .error (.outOfRange position size w.size)

/-- The little-endian number in the `width` bytes at `position`. -/
def readNat (v : View) (position width : Nat) : Except MemoryError Nat :=
  (v.read position width).map littleEndian

/-- The word at `position`. -/
def readWord (v : View) (position : Nat) (size : WordSize) : Except MemoryError Word :=
  (v.readNat position size.bytes).map (Word.ofNat size)

/-- The widths of a number that can be read on its own. -/
def isNumberWidth (width : Nat) : Bool :=
  width == 1 || width == 2 || width == 4 || width == 8

/-- The number of `width` bytes at `position`, as a word; a width that no number has reads a whole
word instead. -/
def readWidened (v : View) (position width : Nat) (size : WordSize) : Except MemoryError Word :=
  if isNumberWidth width then
    (v.readNat position width).map (Word.ofNat size)
  else
    v.readWord position size

/-- How a view is shown in diagnostics. -/
def text (v : View) : String :=
  "MemoryView \x7b valid: " ++ (if v.isValid then "true" else "false") ++
    s!", offset: {v.offset}, size: {v.size} " ++ "\x7d"

end View

end RefRules
