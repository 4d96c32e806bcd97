import Mathlib
import RefRules.Proofs.Views

/-!
# RefRules — arithmetic of words

A word is a residue: a number modulo `2 ^ (8 * bytes)` for the bytes of its width. Sums and differences
with plain numbers are those of residues, so that they undo each other. A checked sum of two words is
made where it does not wrap, a difference where the widths agree, and a distance where it does not go
below.

Words of both widths are kept in 64 bits. An operation wraps at 64 bits, and only then the bits outside
of the width are masked. `Word64` is a word in this form, with every operation as it is computed: it comes
to the same words, because the number of values of a width divides that of 64 bits.

Main definitions and results:

* `Word.IsResidue` — the word that stands for a residue, of which there is one;
* `Word.IsModularWith` — what the arithmetic of two words comes to;
* `Word.IsExactWith` — in 64 bits it comes to the same;
* `Word64.isBuilt_iff` — the words that operations build are those that fit their width;
* `Word.arithmetic_isModular` — all of that for any two words.
-/

namespace RefRules

namespace WordSize

theorem limit_eq_two_pow (size : WordSize) : size.limit = 2 ^ (8 * size.bytes) := by
  rw [limit_eq, Nat.pow_mul]

/-- Reducing a number does not change its residue. -/
theorem cast_mod_limit (size : WordSize) (n : Nat) :
    ((n % size.limit : Nat) : ZMod (2 ^ (8 * size.bytes))) = n := by
  rw [limit_eq_two_pow, ZMod.natCast_mod]

theorem cast_limit (size : WordSize) : (size.limit : ZMod (2 ^ (8 * size.bytes))) = 0 := by
  rw [limit_eq_two_pow, ZMod.natCast_self]

/-- The number of values of a width divides that of 64 bits: to wrap there first changes no residue. -/
theorem limit_dvd_limit64 (size : WordSize) : size.limit ∣ Numeral.limit64 := by
  cases size <;> decide

theorem two_pow_le_limit64 (size : WordSize) : 2 ^ (8 * size.bytes) ≤ Numeral.limit64 := by
  rw [← limit_eq_two_pow]
  exact Nat.le_of_dvd (by decide) size.limit_dvd_limit64

end WordSize

/-! ## Residues -/

namespace Word

/-- The word of a width that stands for a residue. -/
structure IsResidue (w : Word) (size : WordSize) (x : ZMod (2 ^ (8 * size.bytes))) : Prop where
  size_eq : w.size = size
  lt : w.value < 2 ^ (8 * size.bytes)
  value_eq : (w.value : ZMod (2 ^ (8 * size.bytes))) = x

variable {size : WordSize} {x : ZMod (2 ^ (8 * size.bytes))} {a b r : Word}

theorem eq_of_value_eq (hSize : a.size = b.size) (hValue : a.value = b.value) : a = b := by
  obtain ⟨_, _, _⟩ := a
  obtain ⟨_, _, _⟩ := b
  cases hSize
  cases hValue
  rfl

/-- A residue has one word. -/
theorem IsResidue.unique (ha : a.IsResidue size x) (hb : b.IsResidue size x) : a = b := by
  -- the values are congruent, and both are below the modulus
  have hSame : a.value ≡ b.value [MOD 2 ^ (8 * size.bytes)] :=
    (ZMod.natCast_eq_natCast_iff ..).mp (ha.value_eq.trans hb.value_eq.symm)
  exact eq_of_value_eq (ha.size_eq.trans hb.size_eq.symm) (hSame.eq_of_lt_of_lt ha.lt hb.lt)

theorem isResidue_self (w : Word) : w.IsResidue w.size w.value :=
  ⟨rfl, w.size.limit_eq_two_pow ▸ w.fits, rfl⟩

theorem value_lt_limit64 (w : Word) : w.value < Numeral.limit64 :=
  Nat.lt_of_lt_of_le (isResidue_self w).lt w.size.two_pow_le_limit64

theorem isResidue_ofNat (size : WordSize) (n : Nat) : (ofNat size n).IsResidue size n :=
  ⟨rfl, (isResidue_self _).lt, size.cast_mod_limit n⟩

theorem IsResidue.add (h : a.IsResidue size x) (n : Nat) : (a.add n).IsResidue size (x + n) := by
  obtain ⟨rfl, -, rfl⟩ := h
  have hSum := isResidue_ofNat a.size (a.value + n)
  rwa [Nat.cast_add] at hSum

theorem IsResidue.sub (h : a.IsResidue size x) (n : Nat) : (a.sub n).IsResidue size (x - n) := by
  obtain ⟨rfl, -, rfl⟩ := h
  -- what is added in place of `n` is its complement at the width
  have hComplement : n % a.size.limit ≤ a.size.limit := (Nat.mod_lt n a.size.limit_pos).le
  have hSum := isResidue_ofNat a.size (a.value + (a.size.limit - n % a.size.limit))
  rwa [Nat.cast_add, Nat.cast_sub hComplement, WordSize.cast_limit, WordSize.cast_mod_limit,
    zero_sub, ← sub_eq_add_neg] at hSum

/-! ## Sums and differences -/

theorem add_sub_self (a : Word) (n : Nat) : (a.add n).sub n = a := by
  have hSame := ((isResidue_self a).add n).sub n
  rw [add_sub_cancel_right] at hSame
  exact hSame.unique (isResidue_self a)

theorem sub_add_self (a : Word) (n : Nat) : (a.sub n).add n = a := by
  have hSame := ((isResidue_self a).sub n).add n
  rw [sub_add_cancel] at hSame
  exact hSame.unique (isResidue_self a)

/-- A sum that fits the width does not wrap. -/
theorem value_add_of_lt {n : Nat} (h : a.value + n < 2 ^ (8 * a.size.bytes)) :
    (a.add n).value = a.value + n :=
  value_ofNat_of_lt (a.size.limit_eq_two_pow ▸ h)

/-- Without wrapping, a sum is a word of its width where their values are the same number. -/
theorem add_eq_iff {d : Nat} (hSize : a.size = b.size) (h : b.value + d < 2 ^ (8 * b.size.bytes)) :
    b.add d = a ↔ b.value + d = a.value := by
  rw [← value_add_of_lt h]
  exact ⟨congrArg value, eq_of_value_eq hSize.symm⟩

theorem add?_eq_some_iff :
    a.add? b = some r ↔
      a.size = b.size ∧ a.value + b.value < 2 ^ (8 * a.size.bytes) ∧ r = a.add b.value := by
  rw [add?, a.size.limit_eq_two_pow]
  by_cases hFits : a.size = b.size ∧ a.value + b.value < 2 ^ (8 * a.size.bytes)
  · rw [if_pos hFits, Option.some.injEq]
    exact ⟨fun hSum => ⟨hFits.1, hFits.2, hSum.symm⟩, fun h => h.2.2.symm⟩
  · rw [if_neg hFits]
    simp only [reduceCtorEq, false_iff]
    exact fun h => hFits ⟨h.1, h.2.1⟩

theorem difference_of_eq (h : a.size = b.size) : a.difference b = .ok (a.sub b.value) := by
  simp only [difference, sub?, if_pos h]

theorem difference_of_ne (h : a.size ≠ b.size) :
    a.difference b = .error (.widthMismatch a.size b.size) := by
  simp only [difference, sub?, if_neg h]

/-- Added to the word that is subtracted, the difference gives the other word. -/
theorem add_sub_value (h : a.size = b.size) : b.add (a.sub b.value).value = a := by
  have hDifference := (isResidue_self a).sub b.value
  have hSum := (isResidue_self b).add (a.sub b.value).value
  rw [← h, hDifference.value_eq, add_sub_cancel] at hSum
  exact hSum.unique (isResidue_self a)

/-- Two words of one width to which the same is added give the same only if they are the same. -/
theorem eq_of_add_value_eq {v : Word} (hSize : v.size = r.size) (hWidth : b.size = r.size)
    (h : b.add v.value = b.add r.value) : v = r := by
  have hSum := ((isResidue_self b).add v.value).value_eq
  -- among residues the word that both are added to cancels
  rw [h, ((isResidue_self b).add r.value).value_eq, add_right_inj, hWidth] at hSum
  exact (hSize ▸ isResidue_self v).unique (hSum ▸ isResidue_self r)

theorem difference_eq_ok_iff :
    a.difference b = .ok r ↔ a.size = b.size ∧ r.size = a.size ∧ b.add r.value = a := by
  by_cases hSize : a.size = b.size
  · rw [difference_of_eq hSize, Except.ok.injEq]
    constructor
    · rintro rfl
      exact ⟨hSize, rfl, add_sub_value hSize⟩
    · rintro ⟨-, hWidth, hSum⟩
      exact eq_of_add_value_eq hWidth.symm (hSize ▸ hWidth.symm)
        ((add_sub_value hSize).trans hSum.symm)
  · rw [difference_of_ne hSize]
    simp only [reduceCtorEq, hSize, false_and]

theorem difference_eq_error_iff {e : MemoryError} :
    a.difference b = .error e ↔ a.size ≠ b.size ∧ e = .widthMismatch a.size b.size := by
  by_cases hSize : a.size = b.size
  · rw [difference_of_eq hSize]
    simp only [reduceCtorEq, hSize, ne_eq, not_true_eq_false, false_and]
  · rw [difference_of_ne hSize, Except.error.injEq, eq_comm]
    simp only [ne_eq, hSize, not_false_eq_true, true_and]

/-- The distance of a word from one that is not above it. -/
theorem offsetFrom?_eq_some_iff {d : Nat} :
    a.offsetFrom? b = some d ↔ b.value + d = a.value := by
  unfold offsetFrom?
  split <;> simp only [Option.some.injEq, reduceCtorEq, false_iff] <;> omega

/-! ## The arithmetic of two words -/

/-- What the arithmetic of a word with plain numbers and with another word comes to. -/
structure IsModularWith (a b : Word) : Prop where
  add : ∀ n : Nat, (a.add n).IsResidue a.size (a.value + n)
  sub : ∀ n : Nat, (a.sub n).IsResidue a.size (a.value - n)
  add_sub : ∀ n, (a.add n).sub n = a
  sub_add : ∀ n, (a.sub n).add n = a
  sum : ∀ r, a.add? b = some r ↔
    a.size = b.size ∧ a.value + b.value < 2 ^ (8 * a.size.bytes) ∧ r = a.add b.value
  difference : ∀ r, a.difference b = .ok r ↔
    a.size = b.size ∧ r.size = a.size ∧ b.add r.value = a
  mismatch : ∀ e, a.difference b = .error e ↔
    a.size ≠ b.size ∧ e = .widthMismatch a.size b.size
  isAbove : (∃ d, a.offsetFrom? b = some d) ↔ b ≤ a
  offset : a.size = b.size → ∀ d, a.offsetFrom? b = some d ↔
    b.add d = a ∧ b.value + d < 2 ^ (8 * b.size.bytes)

theorem isModularWith (a b : Word) : a.IsModularWith b where
  add := (isResidue_self a).add
  sub := (isResidue_self a).sub
  add_sub := add_sub_self a
  sub_add := sub_add_self a
  sum _ := add?_eq_some_iff
  difference _ := difference_eq_ok_iff
  mismatch _ := difference_eq_error_iff
  isAbove := by
    simp only [offsetFrom?_eq_some_iff, le_iff]
    exact ⟨fun ⟨d, hSum⟩ => by omega, fun h => ⟨a.value - b.value, by omega⟩⟩
  offset hSize d := by
    rw [offsetFrom?_eq_some_iff]
    constructor
    · intro hSum
      -- the sum is a word of the width, so it fits
      have hFits : b.value + d < 2 ^ (8 * b.size.bytes) := by
        rw [hSum, ← hSize]
        exact (isResidue_self a).lt
      exact ⟨(add_eq_iff hSize hFits).mpr hSum, hFits⟩
    · rintro ⟨hSum, hFits⟩
      exact (add_eq_iff hSize hFits).mp hSum

end Word

/-! ## Words in 64 bits -/

/-- The number in little-endian `bytes`, put together in 64 bits. -/
def littleEndian64 (bytes : List UInt8) : UInt64 :=
  bytes.foldr (fun b n => b.toUInt64 ||| n <<< 8) 0

/-- A word as it is kept: 64 bits for either width. -/
structure Word64 where
  size : WordSize
  bits : UInt64
  deriving DecidableEq

namespace Word64

/-- The bits of the width; all others are masked. -/
def ofBits (size : WordSize) (bits : UInt64) : Word64 :=
  ⟨size, bits &&& size.mask.toUInt64⟩

def add (w : Word64) (n : UInt64) : Word64 :=
  ofBits w.size (w.bits + n)

def sub (w : Word64) (n : UInt64) : Word64 :=
  ofBits w.size (w.bits - n)

/-- The sum is checked at 64 bits, and then against the mask. -/
def add? (a b : Word64) : Option Word64 :=
  if a.size = b.size then
    match sum64? a.bits b.bits with
    | some sum => if a.size.mask.toUInt64 < sum then none else some (ofBits a.size sum)
    | none => none
  else
    none

def difference (a b : Word64) : Except MemoryError Word64 :=
  if a.size = b.size then .ok (ofBits a.size (a.bits - b.bits))
  else .error (.widthMismatch a.size b.size)

def offsetFrom? (w base : Word64) : Option UInt64 :=
  if base.bits ≤ w.bits then some (w.bits - base.bits) else none

def decode (size : WordSize) (bytes : List UInt8) : Word64 :=
  ofBits size (littleEndian64 (bytes.take size.bytes))

/-- What the operations build, of any operands. -/
inductive IsBuilt : Word64 → Prop
  | ofBits (size : WordSize) (bits : UInt64) : IsBuilt (ofBits size bits)
  | add (w : Word64) (n : UInt64) : IsBuilt (w.add n)
  | sub (w : Word64) (n : UInt64) : IsBuilt (w.sub n)
  | sum {a b r : Word64} (h : a.add? b = some r) : IsBuilt r
  | difference {a b r : Word64} (h : a.difference b = .ok r) : IsBuilt r
  | decode (size : WordSize) (bytes : List UInt8) : IsBuilt (decode size bytes)

end Word64

/-- The word as it is kept. -/
def Word.to64 (w : Word) : Word64 :=
  ⟨w.size, w.value.toUInt64⟩

/-! ## Masks -/

theorem WordSize.toNat_mask (size : WordSize) :
    size.mask.toUInt64.toNat = 2 ^ (8 * size.bytes) - 1 := by
  cases size <;> rfl

namespace Word64

/-- A mask takes the remainder. -/
theorem toNat_ofBits (size : WordSize) (bits : UInt64) :
    (ofBits size bits).bits.toNat = bits.toNat % 2 ^ (8 * size.bytes) := by
  show (bits &&& size.mask.toUInt64).toNat = _
  rw [UInt64.toNat_and, size.toNat_mask, Nat.and_two_pow_sub_one_eq_mod]

theorem eq_of_toNat_eq {v w : Word64} (hSize : v.size = w.size)
    (hBits : v.bits.toNat = w.bits.toNat) : v = w := by
  obtain ⟨_, _⟩ := v
  obtain ⟨_, _⟩ := w
  cases hSize
  cases UInt64.toNat_inj.mp hBits
  rfl

/-- A sum that wraps at 64 bits is refused, and so is one above the mask. -/
theorem add?_eq (a b : Word64) :
    a.add? b =
      if a.size = b.size ∧ a.bits.toNat + b.bits.toNat < 2 ^ (8 * a.size.bytes) then
        some (ofBits a.size (a.bits + b.bits))
      else
        none := by
  have hLimit := a.size.two_pow_le_limit64
  unfold add? sum64?
  by_cases hSize : a.size = b.size
  · rw [if_pos hSize]
    -- the mask decides where 64 bits hold the sum; elsewhere it is too large for any width
    by_cases hWide : a.bits.toNat + b.bits.toNat < Numeral.limit64
    · have hMask : a.size.mask.toUInt64 < a.bits + b.bits ↔
          2 ^ (8 * a.size.bytes) ≤ a.bits.toNat + b.bits.toNat := by
        have hPos := Nat.two_pow_pos (8 * a.size.bytes)
        rw [UInt64.lt_iff_toNat_lt, WordSize.toNat_mask, toNat_add hWide]
        omega
      simp only [if_pos hWide, hMask]
      by_cases hFits : a.bits.toNat + b.bits.toNat < 2 ^ (8 * a.size.bytes)
      · rw [if_neg (by omega), if_pos ⟨hSize, hFits⟩]
      · rw [if_pos (by omega), if_neg fun h => hFits h.2]
    · rw [if_neg hWide, if_neg (by omega)]
  · rw [if_neg hSize, if_neg fun h => hSize h.1]

theorem difference_of_eq {a b : Word64} (h : a.size = b.size) :
    a.difference b = .ok (a.sub b.bits) :=
  if_pos h

theorem difference_of_ne {a b : Word64} (h : a.size ≠ b.size) :
    a.difference b = .error (.widthMismatch a.size b.size) :=
  if_neg h

theorem toNat_to64 (w : Word) : w.to64.bits.toNat = w.value :=
  toNat_toUInt64 w.value_lt_limit64

/-- Bits and a number with one remainder make the same word. -/
theorem ofBits_eq_to64 {size : WordSize} {bits : UInt64} {n : Nat}
    (h : bits.toNat % size.limit = n % size.limit) :
    ofBits size bits = (Word.ofNat size n).to64 := by
  refine eq_of_toNat_eq rfl ?_
  rw [toNat_ofBits, toNat_to64, Word.value_ofNat, ← size.limit_eq_two_pow, h]

/-! ## What operations build -/

theorem ofBits_of_add? {a b r : Word64} (h : a.add? b = some r) : ∃ bits, r = ofBits a.size bits := by
  rw [add?_eq] at h
  split at h <;> cases h
  exact ⟨a.bits + b.bits, rfl⟩

theorem ofBits_of_difference {a b r : Word64} (h : a.difference b = .ok r) :
    ∃ bits, r = ofBits a.size bits := by
  by_cases hSize : a.size = b.size
  · rw [difference_of_eq hSize, Except.ok.injEq] at h
    exact ⟨a.bits - b.bits, h.symm⟩
  · rw [difference_of_ne hSize] at h
    cases h

/-- Every operation ends with the mask. -/
theorem IsBuilt.exists_eq_ofBits {w : Word64} (h : w.IsBuilt) : ∃ size bits, w = .ofBits size bits := by
  cases h with
  | ofBits size bits => exact ⟨size, bits, rfl⟩
  | add w n => exact ⟨w.size, w.bits + n, rfl⟩
  | sub w n => exact ⟨w.size, w.bits - n, rfl⟩
  | sum h =>
    obtain ⟨bits, rfl⟩ := ofBits_of_add? h
    exact ⟨_, bits, rfl⟩
  | difference h =>
    obtain ⟨bits, rfl⟩ := ofBits_of_difference h
    exact ⟨_, bits, rfl⟩
  | decode size bytes => exact ⟨size, _, rfl⟩

/-- The words that operations build are those that fit their width. -/
theorem isBuilt_iff {w : Word64} : w.IsBuilt ↔ w.bits.toNat < 2 ^ (8 * w.size.bytes) := by
  constructor
  · intro hBuilt
    obtain ⟨size, bits, rfl⟩ := hBuilt.exists_eq_ofBits
    rw [toNat_ofBits]
    exact Nat.mod_lt _ (Nat.two_pow_pos _)
  · intro hFits
    -- a word that fits is what the mask leaves of its own bits
    have hSelf : ofBits w.size w.bits = w := by
      refine eq_of_toNat_eq rfl ?_
      rw [toNat_ofBits, Nat.mod_eq_of_lt hFits]
    rw [← hSelf]
    exact .ofBits ..

/-- They are all words as they are kept, and no others. -/
theorem isBuilt_iff_exists_to64 {w : Word64} : w.IsBuilt ↔ ∃ v : Word, v.to64 = w := by
  rw [isBuilt_iff]
  constructor
  · intro hFits
    refine ⟨⟨w.size, w.bits.toNat, w.size.limit_eq_two_pow ▸ hFits⟩, eq_of_toNat_eq rfl ?_⟩
    rw [toNat_to64]
  · rintro ⟨v, rfl⟩
    rw [toNat_to64]
    exact (Word.isResidue_self v).lt

end Word64

/-! ## The same arithmetic in 64 bits -/

/-- Up to eight bytes are put together without loss. -/
theorem toNat_littleEndian64 {bytes : List UInt8} (h : bytes.length ≤ 8) :
    (littleEndian64 bytes).toNat = littleEndian bytes := by
  induction bytes with
  | nil => rfl
  | cons b bytes ih =>
    rw [List.length_cons] at h
    have hRest := ih (by omega)
    have hByte : b.toNat < 2 ^ 8 := b.toNat_lt
    -- the bytes behind the first one leave eight bits free
    have hRoom : littleEndian bytes < 2 ^ 56 := by
      have hPow : 256 ^ bytes.length ≤ 256 ^ 7 := Nat.pow_le_pow_right (by decide) (by omega)
      exact Nat.lt_of_lt_of_le (littleEndian_lt bytes) hPow
    have hShift : (littleEndian64 bytes <<< 8).toNat = 2 ^ 8 * littleEndian bytes := by
      rw [UInt64.toNat_shiftLeft, hRest]
      show littleEndian bytes <<< 8 % 2 ^ 64 = _
      rw [Nat.shiftLeft_eq, Nat.mod_eq_of_lt (by omega), Nat.mul_comm]
    show (b.toUInt64 ||| littleEndian64 bytes <<< 8).toNat = b.toNat + 256 * littleEndian bytes
    rw [UInt64.toNat_or, hShift, UInt8.toNat_toUInt64, Nat.or_comm,
      ← Nat.two_pow_add_eq_or_of_lt hByte, Nat.add_comm]

namespace Word

variable {a b : Word}

theorem to64_ofNat (size : WordSize) (n : UInt64) :
    (ofNat size n.toNat).to64 = .ofBits size n :=
  (Word64.ofBits_eq_to64 rfl).symm

theorem to64_add (a : Word) (n : UInt64) : (a.add n.toNat).to64 = a.to64.add n := by
  refine (Word64.ofBits_eq_to64 ?_).symm
  rw [UInt64.toNat_add, Word64.toNat_to64]
  exact Nat.mod_mod_of_dvd _ a.size.limit_dvd_limit64

/-- The complement at 64 bits is one at the width, too. -/
theorem to64_sub (a : Word) (n : UInt64) : (a.sub n.toNat).to64 = a.to64.sub n := by
  refine (Word64.ofBits_eq_to64 ?_).symm
  rw [UInt64.toNat_sub, Word64.toNat_to64]
  have hNumber := n.toNat_lt
  -- the two complements differ by a multiple of the number of values of the width
  cases a.size <;> simp only [WordSize.limit, Numeral.limit32, Numeral.limit64] <;> omega

theorem to64_add? (a b : Word) : (a.add? b).map to64 = a.to64.add? b.to64 := by
  rw [Word64.add?_eq, Word64.toNat_to64, Word64.toNat_to64, add?, a.size.limit_eq_two_pow]
  by_cases hFits : a.size = b.size ∧ a.value + b.value < 2 ^ (8 * a.size.bytes)
  · have hFits64 : a.to64.size = b.to64.size ∧
        a.value + b.value < 2 ^ (8 * a.to64.size.bytes) := hFits
    have hSum : (a.to64.bits + b.to64.bits).toNat = a.value + b.value := by
      have hLimit := a.size.two_pow_le_limit64
      rw [← Word64.toNat_to64 a, ← Word64.toNat_to64 b] at hFits ⊢
      exact toNat_add (by omega)
    rw [if_pos hFits, if_pos hFits64, Option.map_some, ← hSum, to64_ofNat]
    rfl
  · have hFits64 : ¬(a.to64.size = b.to64.size ∧
        a.value + b.value < 2 ^ (8 * a.to64.size.bytes)) := hFits
    rw [if_neg hFits, if_neg hFits64, Option.map_none]

theorem to64_difference (a b : Word) :
    (a.difference b).map to64 = a.to64.difference b.to64 := by
  by_cases hSize : a.size = b.size
  · have hSize64 : a.to64.size = b.to64.size := hSize
    have hSub := to64_sub a b.to64.bits
    rw [Word64.toNat_to64] at hSub
    rw [difference_of_eq hSize, Word64.difference_of_eq hSize64, ← hSub]
    rfl
  · have hSize64 : a.to64.size ≠ b.to64.size := hSize
    rw [difference_of_ne hSize, Word64.difference_of_ne hSize64]
    rfl

theorem to64_offsetFrom? (a b : Word) :
    (a.offsetFrom? b).map Nat.toUInt64 = a.to64.offsetFrom? b.to64 := by
  have hOrder : b.to64.bits ≤ a.to64.bits ↔ b.value ≤ a.value := by
    rw [UInt64.le_iff_toNat_le, Word64.toNat_to64, Word64.toNat_to64]
  have hWord := a.value_lt_limit64
  unfold offsetFrom? Word64.offsetFrom?
  by_cases hAbove : b.value ≤ a.value
  · rw [if_pos hAbove, if_pos (hOrder.mpr hAbove), Option.map_some, Option.some.injEq,
      ← UInt64.toNat_inj, UInt64.toNat_sub_of_le _ _ (hOrder.mpr hAbove), Word64.toNat_to64,
      Word64.toNat_to64, toNat_toUInt64 (by omega)]
  · rw [if_neg hAbove, if_neg (mt hOrder.mp hAbove), Option.map_none]

theorem value_decode (size : WordSize) (bytes : List UInt8) :
    (decode size bytes).value = littleEndian (bytes.take size.bytes) := by
  refine value_ofNat_of_lt ?_
  have hLength : (bytes.take size.bytes).length ≤ size.bytes := List.length_take_le ..
  rw [size.limit_eq]
  exact Nat.lt_of_lt_of_le (littleEndian_lt _) (Nat.pow_le_pow_right (by decide) hLength)

theorem to64_decode (size : WordSize) (bytes : List UInt8) :
    (decode size bytes).to64 = .decode size bytes := by
  have hLength : (bytes.take size.bytes).length ≤ 8 :=
    Nat.le_trans (List.length_take_le ..) (by cases size <;> decide)
  refine (Word64.ofBits_eq_to64 ?_).symm
  rw [toNat_littleEndian64 hLength]

/-- In 64 bits the arithmetic of two words comes to the same words and errors. -/
structure IsExactWith (a b : Word) : Prop where
  value : a.to64.bits.toNat = a.value
  add : ∀ n : UInt64, (a.add n.toNat).to64 = a.to64.add n
  sub : ∀ n : UInt64, (a.sub n.toNat).to64 = a.to64.sub n
  sum : (a.add? b).map to64 = a.to64.add? b.to64
  difference : (a.difference b).map to64 = a.to64.difference b.to64
  offset : (a.offsetFrom? b).map Nat.toUInt64 = a.to64.offsetFrom? b.to64

theorem isExactWith (a b : Word) : a.IsExactWith b where
  value := Word64.toNat_to64 a
  add := to64_add a
  sub := to64_sub a
  sum := to64_add? a b
  difference := to64_difference a b
  offset := to64_offsetFrom? a b

/-- **Words are residues.** The arithmetic of any two words is that of numbers modulo
`2 ^ (8 * bytes)` for the bytes of their width, and in 64 bits, which wrap before they are masked, it
comes to the same. So do words made of 64 bits, which are residues of these, and words read from bytes,
which lose nothing. Whatever is built in 64 bits fits its width and is such a word. -/
theorem arithmetic_isModular (a b : Word) :
    a.IsModularWith b ∧ a.IsExactWith b ∧
      (∀ size (n : UInt64), (ofNat size n.toNat).IsResidue size n.toNat ∧
        (ofNat size n.toNat).to64 = .ofBits size n) ∧
      (∀ size bytes, (decode size bytes).size = size ∧
        (decode size bytes).value = littleEndian (bytes.take size.bytes) ∧
        (decode size bytes).to64 = .decode size bytes) ∧
      ∀ w : Word64, (w.IsBuilt ↔ w.bits.toNat < 2 ^ (8 * w.size.bytes)) ∧
        (w.IsBuilt ↔ ∃ v : Word, v.to64 = w) :=
  ⟨isModularWith a b, isExactWith a b,
    fun size n => ⟨isResidue_ofNat size n.toNat, to64_ofNat size n⟩,
    fun size bytes => ⟨rfl, value_decode size bytes, to64_decode size bytes⟩,
    fun _ => ⟨Word64.isBuilt_iff, Word64.isBuilt_iff_exists_to64⟩⟩

/-- A narrow word drops the high half of what is subtracted, and wraps at its own width. -/
example : (Word64.ofBits .four 0xfffffff0).sub 0xffffffff00000000 = ⟨.four, 0xfffffff0⟩ ∧
    (Word64.ofBits .four 0xfffffff0).add 0x20 = ⟨.four, 0x10⟩ := by
  decide

end Word

end RefRules
