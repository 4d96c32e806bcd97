import Mathlib
import RefRules.View
import RefRules.Proofs.Outcome

/-!
# RefRules — windows of a store

A view is cut out of a store: as a window of it, as the whole of it, or as a range or a tail of another
view. However deep cuts are nested, the view lies inside of the store, and what is read from it are the
bytes of the store. Views are kept in numbers of 64 bits, and the place of a part or of a read is a sum
of such numbers that nothing checks. `View64` is a view in these numbers, with every sum as it is
computed: no sum wraps in a store whose own size is a number of 64 bits.

Main definitions and results:

* `Cut` — how a view is cut out of a store;
* `View.Shows` — the view is a window of the store, and its reads are those of the store;
* `View.to64_range`, `View.to64_tail`, `View.to64_read` — the same in numbers of 64 bits;
* `Cut.view_isExact` — all of that for cuts of any depth.
-/

namespace RefRules

/-! ## Numbers in bytes -/

theorem littleEndian_lt (bytes : List UInt8) : littleEndian bytes < 256 ^ bytes.length := by
  induction bytes with
  | nil => decide
  | cons b bytes ih =>
    have hByte := b.toNat_lt
    rw [List.length_cons, Nat.pow_succ]
    show b.toNat + 256 * littleEndian bytes < _
    omega

/-- A number is zero exactly when all of its bytes are. -/
theorem littleEndian_eq_zero_iff {bytes : List UInt8} :
    littleEndian bytes = 0 ↔ ∀ b ∈ bytes, b = 0 := by
  induction bytes with
  | nil => simp [littleEndian]
  | cons b bytes ih =>
    have hByte : b.toNat = 0 ↔ b = 0 := by
      rw [← UInt8.toNat_inj]
      rfl
    show b.toNat + 256 * littleEndian bytes = 0 ↔ _
    rw [List.forall_mem_cons, ← ih, ← hByte]
    omega

/-- The bytes are the digits of the number to base 256, the lowest first. -/
theorem littleEndian_eq_sum (bytes : List UInt8) :
    littleEndian bytes = ∑ k ∈ Finset.range bytes.length, (bytes.getD k 0).toNat * 256 ^ k := by
  induction bytes with
  | nil => rfl
  | cons b bytes ih =>
    have hShift : ∀ k, ((b :: bytes).getD (k + 1) 0).toNat * 256 ^ (k + 1) =
        256 * ((bytes.getD k 0).toNat * 256 ^ k) := by
      intro k
      rw [List.getD_cons_succ, Nat.pow_succ]
      ring
    rw [List.length_cons, Finset.sum_range_succ']
    simp only [hShift, ← Finset.mul_sum, ← ih]
    show b.toNat + 256 * littleEndian bytes = _
    simp only [List.getD_cons_zero, Nat.pow_zero, Nat.mul_one]
    omega

theorem WordSize.limit_eq (size : WordSize) : size.limit = 256 ^ size.bytes := by
  cases size <;> rfl

theorem Word.ofNat_size_value (w : Word) : ofNat w.size w.value = w := by
  obtain ⟨size, value, hFits⟩ := w
  simp only [ofNat, Nat.mod_eq_of_lt hFits]

/-! ## Bytes of a store -/

namespace Store

/-- The number in `width` bytes of a store from `start` on, the lowest byte first. -/
def number (store : Store) (start width : Nat) : Nat :=
  ∑ k ∈ Finset.range width, (store.getD (start + k) 0).toNat * 256 ^ k

theorem toList_extract (store : Store) (start size : Nat) :
    (store.extract start (start + size)).toList = (store.toList.drop start).take size := by
  rw [Array.toList_extract, List.extract_eq_take_drop, Nat.add_sub_cancel_left]

theorem length_extract {store : Store} {start size : Nat} (h : start + size ≤ store.size) :
    (store.extract start (start + size)).toList.length = size := by
  rw [Array.length_toList, Array.size_extract]
  omega

theorem littleEndian_extract {store : Store} {start width : Nat} (h : start + width ≤ store.size) :
    littleEndian (store.extract start (start + width)).toList = number store start width := by
  rw [littleEndian_eq_sum, length_extract h]
  refine Finset.sum_congr rfl fun k hk => ?_
  have hk := Finset.mem_range.mp hk
  rw [Array.getD_eq_getD_getElem?, List.getD_eq_getElem?_getD, Array.getElem?_toList,
    Array.getElem?_extract, if_pos (by omega)]

theorem number_lt {store : Store} {start width : Nat} (h : start + width ≤ store.size) :
    number store start width < 256 ^ width := by
  have hBound := littleEndian_lt (store.extract start (start + width)).toList
  rwa [littleEndian_extract h, length_extract h] at hBound

end Store

/-! ## Parts and reads -/

/-- The window of `size` bytes at `position` of a window. -/
def Window.part (w : Window) (position size : Nat) (h : position + size ≤ w.size) : Window :=
  ⟨w.store, w.offset + position, size, by have := w.inside; omega⟩

namespace View

variable {w : Window} {position size : Nat}

theorem ofStore_of_le {store : Store} (h : position + size ≤ store.size) :
    ofStore store position size = .ok (window ⟨store, position, size, h⟩) :=
  dif_pos h

theorem ofStore_of_lt {store : Store} (h : store.size < position + size) :
    ofStore store position size = .error (.outOfRange position size store.size) :=
  dif_neg (by omega)

theorem range_window (h : position + size ≤ w.size) :
    (window w).range position size = .ok (window (w.part position size h)) :=
  dif_pos h

theorem range_window_of_lt (h : w.size < position + size) :
    (window w).range position size = .error (.outOfRange position size w.size) :=
  dif_neg (by omega)

theorem tail_window (h : position ≤ w.size) :
    (window w).tail position = .ok (window (w.part position (w.size - position) (by omega))) := by
  have hSize : (window w).size = w.size := rfl
  rw [tail, hSize, if_pos h, range_window]

theorem tail_window_of_lt (h : w.size < position) :
    (window w).tail position = .error (.outOfRange position 0 w.size) := by
  have hSize : (window w).size = w.size := rfl
  rw [tail, hSize, if_neg (by omega), range_window_of_lt (by omega)]

theorem read_window (h : position + size ≤ w.size) :
    (window w).read position size =
      .ok (w.store.extract (w.offset + position) (w.offset + position + size)).toList :=
  if_pos h

theorem read_window_of_lt (h : w.size < position + size) :
    (window w).read position size = .error (.outOfRange position size w.size) :=
  if_neg (by omega)

/-- What is read in a part lies as much further in the whole as the part begins. -/
theorem read_part {p s q t : Nat} (hPart : p + s ≤ w.size) (hFits : q + t ≤ s) :
    (window (w.part p s hPart)).read q t = (window w).read (p + q) t := by
  rw [read_window (w := w.part p s hPart) hFits, read_window (by omega)]
  simp only [Window.part, Nat.add_assoc]

theorem exists_byte_of_read {position : Nat} (h : position < w.size) :
    ∃ byte, (window w).read position 1 = .ok [byte] := by
  have hInside := w.inside
  have hFits : w.offset + position + 1 ≤ w.store.size := by omega
  have hLength := Store.length_extract hFits
  obtain ⟨byte, hByte⟩ := List.length_eq_one_iff.mp hLength
  exact ⟨byte, by rw [read_window h, hByte]⟩

/-- Where a view shows something, it is a window. -/
theorem exists_window_of_range {v part : View} (h : v.range position size = .ok part) :
    ∃ w, ∃ hFits : position + size ≤ w.size,
      v = window w ∧ part = window (w.part position size hFits) := by
  cases v with
  | invalid => cases h
  | window w =>
    by_cases hFits : position + size ≤ w.size
    · rw [range_window hFits, Except.ok.injEq] at h
      exact ⟨w, hFits, rfl, h.symm⟩
    · rw [range_window_of_lt (by omega)] at h
      cases h

theorem exists_window_of_read {v : View} {bytes : List UInt8} (h : v.read position size = .ok bytes) :
    ∃ w, v = window w ∧ position + size ≤ w.size ∧
      (w.store.extract (w.offset + position) (w.offset + position + size)).toList = bytes := by
  cases v with
  | invalid => cases h
  | window w =>
    by_cases hFits : position + size ≤ w.size
    · rw [read_window hFits, Except.ok.injEq] at h
      exact ⟨w, rfl, hFits, h⟩
    · rw [read_window_of_lt (by omega)] at h
      cases h

theorem length_of_read {v : View} {bytes : List UInt8} (h : v.read position size = .ok bytes) :
    bytes.length = size := by
  obtain ⟨w, -, hFits, rfl⟩ := exists_window_of_read h
  have hInside := w.inside
  exact Store.length_extract (by omega)

/-- What is read in a window are its bytes. -/
theorem read_eq_bytes (h : position + size ≤ w.size) :
    (window w).read position size = .ok (((window w).bytes.drop position).take size) := by
  have hInside := w.inside
  rw [read_window h, bytes, Store.toList_extract, Store.toList_extract, List.drop_take,
    List.drop_drop, List.take_take, Nat.min_eq_left (by omega)]

/-- A range of a range is a range of the whole. -/
theorem range_range {v inner part : View} {p s q t : Nat} (hInner : v.range p s = .ok inner)
    (hPart : inner.range q t = .ok part) : v.range (p + q) t = .ok part := by
  obtain ⟨w, hOuter, rfl, rfl⟩ := exists_window_of_range hInner
  obtain ⟨w', hFits, hSame, rfl⟩ := exists_window_of_range hPart
  cases hSame
  have hLast : q + t ≤ s := hFits
  rw [range_window (by omega)]
  simp only [Window.part, Nat.add_assoc]

theorem readNat_eq_ok_iff {width n : Nat} :
    (window w).readNat position width = .ok n ↔
      position + width ≤ w.size ∧ n = Store.number w.store (w.offset + position) width := by
  have hInside := w.inside
  rw [readNat, map_eq_ok_iff]
  by_cases hFits : position + width ≤ w.size
  · simp only [read_window hFits, Except.ok.injEq, exists_eq_left', hFits, true_and]
    rw [Store.littleEndian_extract (by omega), eq_comm]
  · simp only [read_window_of_lt (Nat.lt_of_not_le hFits), reduceCtorEq, false_and, exists_false,
      hFits]

/-- A word has room for the number in its bytes. -/
theorem readWord_window_iff {word : Word} {wordSize : WordSize} :
    (window w).readWord position wordSize = .ok word ↔
      position + wordSize.bytes ≤ w.size ∧ word.size = wordSize ∧
        word.value = Store.number w.store (w.offset + position) wordSize.bytes := by
  have hInside := w.inside
  rw [readWord, map_eq_ok_iff]
  constructor
  · rintro ⟨n, hRead, rfl⟩
    obtain ⟨hFits, rfl⟩ := readNat_eq_ok_iff.mp hRead
    refine ⟨hFits, rfl, Word.value_ofNat_of_lt ?_⟩
    rw [WordSize.limit_eq]
    exact Store.number_lt (by omega)
  · rintro ⟨hFits, rfl, hValue⟩
    refine ⟨_, readNat_eq_ok_iff.mpr ⟨hFits, rfl⟩, ?_⟩
    rw [← hValue, Word.ofNat_size_value]

/-- The view is a window of the store. Its parts and reads are made exactly as far as its size goes,
and they are those of the store. -/
structure Shows (v : View) (store : Store) : Prop where
  inside : v.offset + v.size ≤ store.size
  range : ∀ position size, (∃ part, v.range position size = .ok part) ↔ position + size ≤ v.size
  range_place : ∀ position size part, v.range position size = .ok part →
    part.offset = v.offset + position ∧ part.size = size
  range_range : ∀ p s q t inner part, v.range p s = .ok inner → inner.range q t = .ok part →
    v.range (p + q) t = .ok part
  tail : ∀ position, (∃ part, v.tail position = .ok part) ↔ position ≤ v.size
  tail_place : ∀ position part, v.tail position = .ok part →
    part.offset = v.offset + position ∧ part.size = v.size - position
  read : ∀ position size, (∃ bytes, v.read position size = .ok bytes) ↔ position + size ≤ v.size
  bytes : ∀ position size bytes, v.read position size = .ok bytes →
    bytes.length = size ∧ bytes = (store.toList.drop (v.offset + position)).take size
  number : ∀ position width n, v.readNat position width = .ok n ↔
    position + width ≤ v.size ∧ n = Store.number store (v.offset + position) width
  word : ∀ position wordSize word, v.readWord position wordSize = .ok word ↔
    position + wordSize.bytes ≤ v.size ∧ word.size = wordSize ∧
      word.value = Store.number store (v.offset + position) wordSize.bytes

theorem shows_window (w : Window) : (window w).Shows w.store where
  inside := w.inside
  range position size := by
    by_cases hFits : position + size ≤ w.size
    · simp [range_window hFits, View.size, hFits]
    · simp [range_window_of_lt (Nat.lt_of_not_le hFits), View.size, hFits]
  range_place position size part hPart := by
    obtain ⟨w', -, hSame, rfl⟩ := exists_window_of_range hPart
    cases hSame
    exact ⟨rfl, rfl⟩
  range_range _ _ _ _ _ _ := View.range_range
  tail position := by
    by_cases hFits : position ≤ w.size
    · simp [tail_window hFits, View.size, hFits]
    · simp [tail_window_of_lt (Nat.lt_of_not_le hFits), View.size, hFits]
  tail_place position part hPart := by
    by_cases hFits : position ≤ w.size
    · rw [tail_window hFits, Except.ok.injEq] at hPart
      subst hPart
      exact ⟨rfl, rfl⟩
    · rw [tail_window_of_lt (Nat.lt_of_not_le hFits)] at hPart
      cases hPart
  read position size := by
    by_cases hFits : position + size ≤ w.size
    · simp [read_window hFits, View.size, hFits]
    · simp [read_window_of_lt (Nat.lt_of_not_le hFits), View.size, hFits]
  bytes position size bytes hRead := by
    refine ⟨length_of_read hRead, ?_⟩
    obtain ⟨w', hSame, -, rfl⟩ := exists_window_of_read hRead
    cases hSame
    exact Store.toList_extract ..
  number _ _ _ := readNat_eq_ok_iff
  word _ _ _ := readWord_window_iff

/-- Whatever is asked of a view of nothing fails. -/
structure Refuses (v : View) : Prop where
  range : ∀ position size, v.range position size = .error .invalidView
  tail : ∀ position, v.tail position = .error .invalidView
  read : ∀ position size, v.read position size = .error .invalidView
  number : ∀ position width, v.readNat position width = .error .invalidView
  word : ∀ position wordSize, v.readWord position wordSize = .error .invalidView
  widened : ∀ position width wordSize,
    v.readWidened position width wordSize = .error .invalidView

theorem refuses_invalid : View.invalid.Refuses where
  range _ _ := rfl
  tail position := by unfold View.tail; split <;> rfl
  read _ _ := rfl
  number _ _ := rfl
  word _ _ := rfl
  widened position width wordSize := by unfold readWidened; split <;> rfl

end View

/-! ## Numbers of 64 bits -/

/-- The sum of two numbers, when it is a number of 64 bits too. -/
def sum64? (a b : UInt64) : Option UInt64 :=
  if a.toNat + b.toNat < Numeral.limit64 then some (a + b) else none

/-- That `size` bytes at `offset` end within `limit`, by the number at which they end. -/
def checkEnd64 (offset size limit : UInt64) : Except MemoryError Unit :=
  match sum64? offset size with
  | some stop =>
    if stop ≤ limit then .ok () else .error (.outOfRange offset.toNat size.toNat limit.toNat)
  | none => .error (.outOfRange offset.toNat size.toNat limit.toNat)

/-- A view as it is kept: its store, if it has one, and two numbers. Sums and differences wrap. -/
structure View64 where
  store : Option Store
  offset : UInt64
  size : UInt64

namespace View64

def ofStore (store : Store) (offset size : UInt64) : Except MemoryError View64 := do
  checkEnd64 offset size store.size.toUInt64
  return ⟨some store, offset, size⟩

def whole (store : Store) : View64 :=
  ⟨some store, 0, store.size.toUInt64⟩

/-- The store, when there is one and `size` bytes at `position` end within the view. -/
def check (v : View64) (position size : UInt64) : Except MemoryError Store :=
  match v.store with
  | none => .error .invalidView
  | some store => (checkEnd64 position size v.size).map fun _ => store

def range (v : View64) (position size : UInt64) : Except MemoryError View64 :=
  (v.check position size).map fun store => ⟨some store, v.offset + position, size⟩

def tail (v : View64) (position : UInt64) : Except MemoryError View64 := do
  let _ ← v.check position 0
  v.range position (v.size - position)

/-- The bytes of a store, which checks their end itself. -/
def readStore (store : Store) (offset size : UInt64) : Except MemoryError (List UInt8) := do
  checkEnd64 offset size store.size.toUInt64
  return (store.extract offset.toNat (offset.toNat + size.toNat)).toList

def read (v : View64) (position size : UInt64) : Except MemoryError (List UInt8) := do
  let store ← v.check position size
  readStore store (v.offset + position) size

end View64

/-- The view in numbers of 64 bits. -/
def View.to64 : View → View64
  | .invalid => ⟨none, 0, 0⟩
  | .window w => ⟨some w.store, w.offset.toUInt64, w.size.toUInt64⟩

theorem toNat_toUInt64 {n : Nat} (h : n < Numeral.limit64) : n.toUInt64.toNat = n :=
  UInt64.toNat_ofNat_of_lt' h

/-- A sum that is a number of 64 bits does not wrap. -/
theorem toNat_add {a b : UInt64} (h : a.toNat + b.toNat < Numeral.limit64) :
    (a + b).toNat = a.toNat + b.toNat := by
  rw [UInt64.toNat_add]
  exact Nat.mod_eq_of_lt h

/-- A sum that is computed is compared as the sum itself. -/
theorem checkEnd64_eq (offset size limit : UInt64) :
    checkEnd64 offset size limit = checkRange offset.toNat size.toNat limit.toNat := by
  have hLimit : limit.toNat < Numeral.limit64 := limit.toNat_lt
  unfold checkEnd64 sum64? checkRange
  by_cases hSum : offset.toNat + size.toNat < Numeral.limit64
  · have hStop : (offset + size).toNat = offset.toNat + size.toNat := toNat_add hSum
    simp only [if_pos hSum, UInt64.le_iff_toNat_le, hStop]
  · rw [if_neg hSum, if_neg (by omega)]

namespace View

variable {w : Window}

theorem to64_window (w : Window) :
    (window w).to64 = ⟨some w.store, w.offset.toUInt64, w.size.toUInt64⟩ := rfl

/-- The check of a window in a store of 64 bits, by the sizes themselves. -/
theorem check_window (hStore : w.store.size < Numeral.limit64) (position size : UInt64) :
    (window w).to64.check position size =
      (checkRange position.toNat size.toNat w.size).map fun _ => w.store := by
  have hInside := w.inside
  rw [to64_window, View64.check]
  dsimp only
  rw [checkEnd64_eq, toNat_toUInt64 (by omega)]

/-- The place of a part or of a read does not wrap. -/
theorem toNat_offset_add (hStore : w.store.size < Numeral.limit64) {position : UInt64}
    (hPosition : position.toNat ≤ w.size) :
    (w.offset.toUInt64 + position).toNat = w.offset + position.toNat := by
  have hInside := w.inside
  have hOffset : w.offset.toUInt64.toNat = w.offset := toNat_toUInt64 (by omega)
  rw [toNat_add (by omega), hOffset]

theorem to64_ofStore {store : Store} (hStore : store.size < Numeral.limit64)
    (offset size : UInt64) :
    View64.ofStore store offset size = (ofStore store offset.toNat size.toNat).map to64 := by
  rw [View64.ofStore, checkEnd64_eq, toNat_toUInt64 hStore]
  by_cases hFits : offset.toNat + size.toNat ≤ store.size
  · have hOffset : offset.toNat.toUInt64 = offset := UInt64.ofNat_toNat
    have hSize : size.toNat.toUInt64 = size := UInt64.ofNat_toNat
    rw [checkRange, if_pos hFits, ok_bind, ofStore_of_le hFits, Except.map, to64_window]
    simp only [hOffset, hSize]
    rfl
  · rw [checkRange, if_neg hFits, ofStore_of_lt (Nat.lt_of_not_le hFits)]
    rfl

theorem to64_range (hStore : w.store.size < Numeral.limit64) (position size : UInt64) :
    (window w).to64.range position size =
      ((window w).range position.toNat size.toNat).map to64 := by
  rw [View64.range, check_window hStore]
  by_cases hFits : position.toNat + size.toNat ≤ w.size
  · have hPlace : (w.offset + position.toNat).toUInt64 = w.offset.toUInt64 + position := by
      rw [← toNat_offset_add hStore (by omega : position.toNat ≤ w.size)]
      exact UInt64.ofNat_toNat
    have hSize : size.toNat.toUInt64 = size := UInt64.ofNat_toNat
    rw [range_window hFits, checkRange, if_pos hFits]
    simp only [Except.map, to64_window, Window.part, hPlace, hSize]
  · rw [range_window_of_lt (Nat.lt_of_not_le hFits), checkRange, if_neg hFits]
    rfl

theorem to64_tail (hStore : w.store.size < Numeral.limit64) (position : UInt64) :
    (window w).to64.tail position = ((window w).tail position.toNat).map to64 := by
  have hInside := w.inside
  rw [View64.tail, check_window hStore]
  by_cases hFits : position.toNat ≤ w.size
  · -- the rest of the window is a difference, which does not wrap either
    have hSize : w.size.toUInt64.toNat = w.size := toNat_toUInt64 (by omega)
    have hRest : (w.size.toUInt64 - position).toNat = w.size - position.toNat := by
      rw [UInt64.toNat_sub_of_le _ _ (UInt64.le_iff_toNat_le.mpr (by omega)), hSize]
    have hCheck : checkRange position.toNat (0 : UInt64).toNat w.size = .ok () := if_pos hFits
    rw [hCheck, Except.map, ok_bind]
    show (window w).to64.range position (w.size.toUInt64 - position) = _
    rw [to64_range hStore, hRest, tail_window hFits, range_window]
  · have hCheck : checkRange position.toNat (0 : UInt64).toNat w.size =
        .error (.outOfRange position.toNat 0 w.size) := if_neg hFits
    rw [hCheck, tail_window_of_lt (Nat.lt_of_not_le hFits)]
    rfl

theorem to64_read (hStore : w.store.size < Numeral.limit64) (position size : UInt64) :
    (window w).to64.read position size = (window w).read position.toNat size.toNat := by
  have hInside := w.inside
  rw [View64.read, check_window hStore]
  by_cases hFits : position.toNat + size.toNat ≤ w.size
  · have hPlace := toNat_offset_add hStore (by omega : position.toNat ≤ w.size)
    rw [checkRange, if_pos hFits, Except.map, ok_bind, View64.readStore, checkEnd64_eq, to64_window]
    dsimp only
    rw [hPlace, toNat_toUInt64 hStore, checkRange, if_pos (by omega), read_window hFits]
    rfl
  · rw [checkRange, if_neg hFits, read_window_of_lt (Nat.lt_of_not_le hFits)]
    rfl

/-- In numbers of 64 bits the view has the same parts and reads, and no place in it wraps. -/
structure IsExact (v : View) : Prop where
  offset : v.to64.offset.toNat = v.offset
  size : v.to64.size.toNat = v.size
  place : ∀ position : UInt64, position.toNat ≤ v.size →
    (v.to64.offset + position).toNat = v.offset + position.toNat
  range : ∀ position size,
    v.to64.range position size = (v.range position.toNat size.toNat).map to64
  tail : ∀ position, v.to64.tail position = (v.tail position.toNat).map to64
  read : ∀ position size, v.to64.read position size = v.read position.toNat size.toNat

theorem isExact_window (hStore : w.store.size < Numeral.limit64) : (window w).IsExact where
  offset := toNat_toUInt64 (by have := w.inside; omega)
  size := toNat_toUInt64 (by have := w.inside; omega)
  place _ := toNat_offset_add hStore
  range := to64_range hStore
  tail := to64_tail hStore
  read := to64_read hStore

theorem isExact_invalid : View.invalid.IsExact where
  offset := rfl
  size := rfl
  place position hPosition := by
    have hZero : position.toNat = 0 := Nat.le_zero.mp hPosition
    show (0 + position).toNat = 0 + position.toNat
    rw [UInt64.zero_add, Nat.zero_add]
  range _ _ := rfl
  tail position := by rw [refuses_invalid.tail]; rfl
  read _ _ := rfl

end View

/-! ## Cuts -/

/-- How a view is cut out of a store. -/
inductive Cut where
  | window (offset size : UInt64)
  | whole
  | range (outer : Cut) (position size : UInt64)
  | tail (outer : Cut) (position : UInt64)

namespace Cut

/-- The view that is cut out of a store. -/
def view (store : Store) : Cut → Except MemoryError View
  | window offset size => View.ofStore store offset.toNat size.toNat
  | whole => .ok (.whole store)
  | range outer position size => do (← outer.view store).range position.toNat size.toNat
  | tail outer position => do (← outer.view store).tail position.toNat

/-- The view that is cut out of a store in numbers of 64 bits. -/
def view64 (store : Store) : Cut → Except MemoryError View64
  | window offset size => View64.ofStore store offset size
  | whole => .ok (.whole store)
  | range outer position size => do (← outer.view64 store).range position size
  | tail outer position => do (← outer.view64 store).tail position

variable {store : Store}

/-- What is cut out of a store is a window of it. -/
theorem exists_window {cut : Cut} {v : View} (h : cut.view store = .ok v) :
    ∃ w : Window, v = .window w ∧ w.store = store := by
  induction cut generalizing v with
  | window offset size =>
    by_cases hFits : offset.toNat + size.toNat ≤ store.size
    · rw [view, View.ofStore_of_le hFits] at h
      cases h
      exact ⟨_, rfl, rfl⟩
    · rw [view, View.ofStore_of_lt (Nat.lt_of_not_le hFits)] at h
      cases h
  | whole =>
    cases h
    exact ⟨_, rfl, rfl⟩
  | range outer position size ih =>
    obtain ⟨inner, hOuter, hPart⟩ := bind_eq_ok_iff.mp h
    obtain ⟨w, rfl, rfl⟩ := ih hOuter
    obtain ⟨w', _, hSame, rfl⟩ := View.exists_window_of_range hPart
    cases hSame
    exact ⟨_, rfl, rfl⟩
  | tail outer position ih =>
    obtain ⟨inner, hOuter, hPart⟩ := bind_eq_ok_iff.mp h
    obtain ⟨w, rfl, rfl⟩ := ih hOuter
    by_cases hFits : position.toNat ≤ w.size
    · rw [View.tail_window hFits] at hPart
      cases hPart
      exact ⟨_, rfl, rfl⟩
    · rw [View.tail_window_of_lt (Nat.lt_of_not_le hFits)] at hPart
      cases hPart

/-- **Run lemma.** A nest of cuts comes to the same view, or to the same error, in numbers of 64
bits. -/
theorem view64_eq (hStore : store.size < Numeral.limit64) (cut : Cut) :
    cut.view64 store = (cut.view store).map View.to64 := by
  induction cut with
  | window offset size => exact View.to64_ofStore hStore offset size
  | whole => rfl
  | range outer position size ih =>
    rw [view64, view, ih]
    cases hOuter : outer.view store with
    | error e => rfl
    | ok v =>
      obtain ⟨w, rfl, rfl⟩ := exists_window hOuter
      exact View.to64_range hStore position size
  | tail outer position ih =>
    rw [view64, view, ih]
    cases hOuter : outer.view store with
    | error e => rfl
    | ok v =>
      obtain ⟨w, rfl, rfl⟩ := exists_window hOuter
      exact View.to64_tail hStore position

/-- **Views are windows of their store.** Whatever is cut out of a store in any nesting lies inside of
it; its parts and reads are made exactly as far as its size goes and are those of the store. All of this
is so in numbers of 64 bits, where sums wrap: the cuts come to the same views and errors, and so do
further parts and reads. A view of nothing refuses everything. -/
theorem view_isExact (hStore : store.size < Numeral.limit64) (cut : Cut) :
    cut.view64 store = (cut.view store).map View.to64 ∧
      (∀ v, cut.view store = .ok v → v.Shows store ∧ v.IsExact) ∧
      View.invalid.Refuses ∧ View.invalid.IsExact := by
  refine ⟨view64_eq hStore cut, fun v hView => ?_, View.refuses_invalid, View.isExact_invalid⟩
  obtain ⟨w, rfl, rfl⟩ := exists_window hView
  exact ⟨View.shows_window w, View.isExact_window hStore⟩

/-- Sixteen bytes with their own positions. -/
def countedStore : Store :=
  #[0, 1, 2, 3, 4, 5, 6, 7, 8, 9, 10, 11, 12, 13, 14, 15]

/-- Eight bytes from the fourth on, and of these the last six. -/
def lateCut : Cut :=
  .tail (.range .whole 4 8) 2

/-- The cut is a view of six bytes, in which a place at the end of all numbers is refused. -/
theorem view_isExact_lateCut :
    countedStore.size < Numeral.limit64 ∧
      ∃ v, lateCut.view countedStore = .ok v ∧ v.size = 6 ∧ v.readNat 1 2 = .ok 0x0807 ∧
        v.to64.read 0xffffffffffffffff 2 = .error (.outOfRange 0xffffffffffffffff 2 6) := by
  have hStore : countedStore.size < Numeral.limit64 := by decide
  obtain ⟨-, hViews, -⟩ := view_isExact hStore lateCut
  obtain ⟨hShows, hExact⟩ := hViews _ rfl
  refine ⟨hStore, _, rfl, rfl, (hShows.number ..).mpr ⟨by decide, by decide⟩, ?_⟩
  rw [hExact.read]
  rfl

end Cut

end RefRules
