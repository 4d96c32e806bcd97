import RefRules.Numeral
import RefRules.Text.Blank
import RefRules.Text.Category

/-!
# RefRules — tokens of rule files

A rule file is a row of group headers, strings, identifiers, integers and punctuation, with blanks
and line comments between them. Every token carries the line it was found on. Main definitions:

* `Token.scanOne` — one sign of the text: a token, or something to skip;
* `Token.scan` — all tokens of a text, or the first fault with its line.
-/

namespace RefRules

/-! ## Tokens -/

inductive TokenKind where
  | header (name : String)
  | string (text : String)
  | ident (name : String)
  | integer (value : Int)
  | leftParen
  | rightParen
  | comma
  | semicolon
  deriving DecidableEq

/-- How a token is named in messages. -/
def TokenKind.text : TokenKind → String
  | header name => s!"group header '#{name}'"
  | string text => s!"string \"{text}\""
  | ident name => s!"'{name}'"
  | integer value => s!"integer {value}"
  | leftParen => "'('"
  | rightParen => "')'"
  | comma => "','"
  | semicolon => "';'"

structure Token where
  kind : TokenKind
  line : Nat
  deriving DecidableEq

/-- Why a text has no tokens. -/
inductive TokenFault where
  | lonelySlash
  | namelessHeader
  | unterminatedString
  | badInteger (text : String)
  | badCharacter (c : Char)
  deriving DecidableEq

def TokenFault.message : TokenFault → String
  | lonelySlash => "unexpected '/'"
  | namelessHeader => "group header without a name"
  | unterminatedString => "unterminated string"
  | badInteger text => s!"invalid integer '{text}'"
  | badCharacter c => s!"unexpected character '{c}'"

namespace Token

open Text

/-! ## Pieces -/

/-- The characters that identifiers go on with. -/
def isIdentChar (c : Char) : Bool :=
  isAlphanumeric c || c == '_' || c == '.' || c == '-'

/-- The characters that identifiers begin with. -/
def isIdentStart (c : Char) : Bool :=
  c.isAlpha || c == '_'

/-- The text of a string up to its closing quote, and the rest. A backslash stands before a
character that is taken as it is; a bare line end leaves the string open. -/
def stringBody : List Char → Option (List Char × List Char)
  | [] => none
  | '"' :: rest => some ([], rest)
  | '\\' :: c :: rest => (stringBody rest).map fun r => (c :: r.1, r.2)
  | c :: rest =>
    if c == '\n' then none else (stringBody rest).map fun r => (c :: r.1, r.2)

/-- The value of decimal digits. -/
def digitsValue (digits : List Char) : Nat :=
  digits.foldl (fun n c => 10 * n + (c.toNat - '0'.toNat)) 0

/-- The integer that digits stand for, perhaps after a minus sign, when it has 64 bits. -/
def integer? (text : List Char) : Option Int :=
  let value : Option Int :=
    match text with
    | [] | ['-'] => none
    | '-' :: digits => some (-(digitsValue digits : Int))
    | digits => some (digitsValue digits : Int)
  value.filter Numeral.isInt64

/-! ## Scanning -/

/-- What one sign of a text is: perhaps a token, the rest after it, and the line there. -/
structure Scanned where
  kind? : Option TokenKind
  rest : List Char
  line : Nat

/-- Reads one sign, which begins with `c` on `line` and goes on in `cs`. -/
def scanOne (line : Nat) (c : Char) (cs : List Char) : Except TokenFault Scanned :=
  let found (kind : TokenKind) (rest : List Char) : Except TokenFault Scanned :=
    .ok ⟨some kind, rest, line⟩
  if c == ' ' || c == '\t' || c == '\r' then .ok ⟨none, cs, line⟩
  else if c == '\n' then .ok ⟨none, cs, line + 1⟩
  else if c == '/' then
    match cs with
    | '/' :: rest => .ok ⟨none, rest.dropWhile (· != '\n'), line⟩
    | _ => .error .lonelySlash
  else if c == '#' then
    match trim (cs.takeWhile (· != '\n')) with
    | [] => .error .namelessHeader
    | name => found (.header (String.ofList name)) (cs.dropWhile (· != '\n'))
  else if c == '"' then
    match stringBody cs with
    | some (text, rest) => found (.string (String.ofList text)) rest
    | none => .error .unterminatedString
  else if c.isDigit || c == '-' then
    let text := c :: cs.takeWhile Char.isDigit
    match integer? text with
    | some value => found (.integer value) (cs.dropWhile Char.isDigit)
    | none => .error (.badInteger (String.ofList text))
  else if isIdentStart c then
    found (.ident (String.ofList (c :: cs.takeWhile isIdentChar))) (cs.dropWhile isIdentChar)
  else
    match c with
    | '(' => found .leftParen cs
    | ')' => found .rightParen cs
    | ',' => found .comma cs
    | ';' => found .semicolon cs
    | c => .error (.badCharacter c)

theorem length_dropWhile_le (p : Char → Bool) (cs : List Char) :
    (cs.dropWhile p).length ≤ cs.length :=
  (List.dropWhile_suffix p).length_le

/-- What follows a string is a part of what follows its opening quote. -/
theorem length_le_of_stringBody {cs text rest : List Char}
    (h : stringBody cs = some (text, rest)) : rest.length ≤ cs.length := by
  fun_induction stringBody cs generalizing text rest with
  | case1 => simp at h
  | case2 r => simp_all
  | case3 c r ih =>
    obtain ⟨u, hu, huv⟩ := Option.map_eq_some_iff.1 h
    have := ih hu
    simp_all
    omega
  | case4 => simp at h
  | case5 c r _ _ _ ih =>
    obtain ⟨u, hu, huv⟩ := Option.map_eq_some_iff.1 h
    have := ih hu
    simp_all
    omega

/-- One sign uses up at least its first character. -/
theorem length_le_of_scanOne {line : Nat} {c : Char} {cs : List Char} {s : Scanned}
    (h : scanOne line c cs = .ok s) : s.rest.length ≤ cs.length := by
  have hd (p : Char → Bool) := length_dropWhile_le p cs
  unfold scanOne at h
  simp only at h
  split at h
  · cases h; exact Nat.le_refl _
  split at h
  · cases h; exact Nat.le_refl _
  split at h
  · split at h
    · cases h
      next rest =>
        have := length_dropWhile_le (· != '\n') rest
        simp only [List.length_cons]
        omega
    · cases h
  split at h
  · split at h
    · cases h
    · cases h; exact hd _
  split at h
  · split at h
    · cases h
      exact length_le_of_stringBody ‹_›
    · cases h
  split at h
  · split at h
    · cases h; exact hd _
    · cases h
  split at h
  · cases h; exact hd _
  split at h <;> cases h <;> exact Nat.le_refl _

/-- The tokens of a text that begins on `line`, or the first fault with its line. -/
def scanFrom (line : Nat) : List Char → Except (Nat × TokenFault) (List Token)
  | [] => .ok []
  | c :: cs =>
    match _h : scanOne line c cs with
    | .error fault => .error (line, fault)
    | .ok s => (scanFrom s.line s.rest).map fun tokens =>
      (s.kind?.map fun kind => Token.mk kind line).toList ++ tokens
  termination_by cs => cs.length
  decreasing_by
    have := length_le_of_scanOne _h
    simp only [List.length_cons]
    omega

/-- The tokens of a text. -/
def scan (text : String) : Except (Nat × TokenFault) (List Token) :=
  scanFrom 1 text.toList

end Token

end RefRules
