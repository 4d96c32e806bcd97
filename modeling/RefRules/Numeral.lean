/-!
# RefRules — numerals

How many values numbers of 32 and 64 bits have, and how addresses, offsets and words are written:
lower-case hexadecimal after `0x`, with or without padding to a fixed count of digits.
-/

namespace RefRules.Numeral

/-! ## Ranges -/

/-- The number of values of 32 bits. -/
def limit32 : Nat := 4294967296

/-- The number of values of 64 bits. -/
def limit64 : Nat := 18446744073709551616

/-- A signed number of 32 bits. -/
def isInt32 (n : Int) : Bool :=
  -2147483648 ≤ n && n ≤ 2147483647

/-- A signed number of 64 bits. -/
def isInt64 (n : Int) : Bool :=
  -9223372036854775808 ≤ n && n ≤ 9223372036854775807

theorem isInt32_iff {n : Int} : isInt32 n = true ↔ -2147483648 ≤ n ∧ n ≤ 2147483647 := by
  simp [isInt32]

theorem isInt64_iff {n : Int} :
    isInt64 n = true ↔ -9223372036854775808 ≤ n ∧ n ≤ 9223372036854775807 := by
  simp [isInt64]

/-! ## Writing -/

/-- The hexadecimal digits of `n`, lower case, without leading zeros. -/
def hexDigits (n : Nat) : String :=
  String.ofList (Nat.toDigits 16 n)

/-- `s` with `fill` in front until it has `width` characters. -/
def padLeft (fill : Char) (width : Nat) (s : String) : String :=
  String.ofList (List.replicate (width - s.length) fill) ++ s

/-- `s` followed by blanks until it has `width` characters. -/
def padRight (width : Nat) (s : String) : String :=
  s ++ String.ofList (List.replicate (width - s.length) ' ')

/-- `0x` and the digits of `n`. -/
def hex (n : Nat) : String :=
  "0x" ++ hexDigits n

/-- `0x` and at least `digits` digits. -/
def hexPadded (digits n : Nat) : String :=
  "0x" ++ padLeft '0' digits (hexDigits n)

end RefRules.Numeral
