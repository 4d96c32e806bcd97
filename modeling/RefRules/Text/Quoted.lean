import RefRules.Numeral
import RefRules.Text.Property

/-!
# RefRules — quoted texts and counts

How a path is shown in quotes, so that no character of it is lost to the eye, and how a number of
things is named.
-/

namespace RefRules.Text

/-! ## Visible characters -/

/-- The character shows as itself. -/
def isPrintable (c : Char) : Bool :=
  match Category.ofChar c with
  | .cc | .cf | .cs | .co | .cn | .zl | .zp => false
  | .zs => c == ' '
  | _ => true

/-! ## Quoting -/

/-- A character between quotes. -/
def visible (c : Char) : String :=
  match c with
  | '\x00' => "\\0"
  | '\t' => "\\t"
  | '\n' => "\\n"
  | '\r' => "\\r"
  | '"' => "\\\""
  | '\x27' => "\\'"
  | '\\' => "\\\\"
  | c =>
    if isPrintable c && !isGraphemeExtend c then c.toString
    else "\\u\x7b" ++ Numeral.hexDigits c.toNat ++ "\x7d"

/-- A text in double quotes. -/
def quoted (s : String) : String :=
  "\"" ++ String.join (s.toList.map visible) ++ "\""

/-! ## Counts -/

/-- A number with the noun for one thing or for several. -/
def counted (n : Nat) (one many : String) : String :=
  if n == 1 then s!"{n} {one}" else s!"{n} {many}"

end RefRules.Text
