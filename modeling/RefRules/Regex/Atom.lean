import RefRules.Regex.Basic
import RefRules.Regex.Error
import RefRules.Text.CaseFold

/-!
# RefRules — atoms of regular expressions

The smallest parts of a pattern text: literals, escapes and named classes, under the modes in
force (case, lines, blanks, character set). Main definitions:

* `Modes` — the modes, and how a list of mode letters changes them;
* `Atom.scanEscape` — the atom after a backslash;
* `Atom.toClass` — the set of characters that an atom stands for.
-/

namespace RefRules.Pattern

open Text

/-! ## Modes -/

/-- How the following part of a pattern is read. -/
structure Modes where
  ignoreCase : Bool := false
  multiLine : Bool := false
  dotAll : Bool := false
  swapGreed : Bool := false
  unicode : Bool := true
  ignoreBlanks : Bool := false
  crlf : Bool := false

/-- One sign of a mode list: a mode letter, or the sign that negates those after it. -/
inductive ModeSign where
  | negate
  | letter (c : Char)
  deriving DecidableEq

/-- Sets the mode of a letter. -/
def Modes.set (m : Modes) (letter : Char) (on : Bool) : Modes :=
  match letter with
  | 'i' => { m with ignoreCase := on }
  | 'm' => { m with multiLine := on }
  | 's' => { m with dotAll := on }
  | 'U' => { m with swapGreed := on }
  | 'u' => { m with unicode := on }
  | 'x' => { m with ignoreBlanks := on }
  | 'R' => { m with crlf := on }
  | _ => m

/-- Applies a mode list from left to right. -/
def Modes.apply (m : Modes) (signs : List ModeSign) : Modes :=
  (signs.foldl (fun (state : Modes × Bool) sign =>
    match sign with
    | .negate => (state.1, false)
    | .letter c => (state.1.set c state.2, state.2)) (m, true)).1

/-- The rest after a line comment. -/
def afterComment : List Char → List Char
  | [] => []
  | c :: cs => if c == '\n' then cs else afterComment cs

theorem length_afterComment_le (cs : List Char) : (afterComment cs).length ≤ cs.length := by
  induction cs with
  | nil => simp [afterComment]
  | cons c cs ih =>
    unfold afterComment
    split
    · simp
    · exact Nat.le_succ_of_le ih

/-- The rest after blanks and comments. -/
def skipBlanks : List Char → List Char
  | [] => []
  | c :: cs =>
    if isBlank c then skipBlanks cs
    else if c == '#' then skipBlanks (afterComment cs)
    else c :: cs
  termination_by cs => cs.length
  decreasing_by
    · simp
    · have := length_afterComment_le cs
      simp only [List.length_cons]
      omega

/-- In the mode that ignores blanks, the rest after blanks and comments. -/
def Modes.skip (m : Modes) (cs : List Char) : List Char :=
  if m.ignoreBlanks then skipBlanks cs else cs

/-! ## Classes -/

/-- The characters equal up to case to one in the class. -/
def foldClass (unicode : Bool) (cls : CharClass) : CharClass :=
  if unicode then fun c => (caseVariants c).any cls
  else fun c => cls c || (c.isLower && cls c.toUpper) || (c.isUpper && cls c.toLower)

/-- Without the Unicode mode a class may hold ASCII characters alone. -/
def isAsciiClass (cls : CharClass) : Bool :=
  (List.range 128).all fun n => !cls (Char.ofNat (n + 128))

/-- A class as the modes ask for it: closed under case, then complemented. -/
def Modes.finish (m : Modes) (negated : Bool) (cls : CharClass) : Except PatternError CharClass :=
  let folded := if m.ignoreCase then foldClass m.unicode cls else cls
  let done : CharClass := if negated then fun c => !folded c else folded
  if !m.unicode && !isAsciiClass done then .error .invalidText else .ok done

/-- The word characters under the modes. -/
def Modes.word (m : Modes) : CharClass :=
  if m.unicode then isWordChar else fun c => c.isAlphanum || c == '_'

/-- White space and the like in ASCII. -/
def isAsciiBlank (c : Char) : Bool :=
  c == ' ' || (9 ≤ c.toNat && c.toNat ≤ 13)

/-! ## Atoms -/

/-- A class with a one-letter name. -/
inductive Shorthand where
  | digit
  | blank
  | word
  deriving DecidableEq

/-- What a literal, an escape or an assertion in a pattern stands for. -/
inductive Atom where
  | literal (c : Char)
  | byte (n : Nat)
  | shorthand (kind : Shorthand) (negated : Bool)
  | property (cls : CharClass) (negated : Bool)
  | assertion (look : Look)

/-- The class of a shorthand under the modes. -/
def Shorthand.toClass (m : Modes) : Shorthand → CharClass
  | digit => if m.unicode then isDecimalDigit else Char.isDigit
  | blank => if m.unicode then isBlank else isAsciiBlank
  | word => m.word

/-- The character that an atom stands for as an end of a range. -/
def Atom.toChar (m : Modes) : Atom → Except PatternError Char
  | literal c => if m.unicode || c.toNat < 128 then .ok c else .error .unicodeNeeded
  | byte n =>
    if m.unicode || n < 128 then .ok (Char.ofNat n) else .error .invalidText
  | _ => .error .badClassRange

/-- The members that an atom adds to a bracketed class. -/
def Atom.toClass (m : Modes) (a : Atom) : Except PatternError CharClass :=
  match a with
  | literal _ | byte _ => do
    let c ← a.toChar m
    return fun d => d == c
  | shorthand kind negated =>
    let cls := kind.toClass m
    if negated && !m.unicode then .error .invalidText
    else .ok (if negated then fun c => !cls c else cls)
  | property cls negated => if m.unicode then m.finish negated cls else .error .unicodeNeeded
  | assertion _ => .error .badClassEscape

/-- The expression of an atom that stands outside of brackets. -/
def Atom.toRegex (m : Modes) (a : Atom) : Except PatternError Regex :=
  match a with
  | literal c =>
    let cls : CharClass := fun d => d == c
    .ok (.one (if m.ignoreCase then foldClass m.unicode cls else cls))
  | byte n =>
    if m.unicode || n < 128 then
      let cls : CharClass := fun d => d == Char.ofNat n
      .ok (.one (if m.ignoreCase then foldClass m.unicode cls else cls))
    else .error .invalidText
  | assertion look => .ok (.look look)
  | _ => (a.toClass m).map .one

/-! ## Escapes -/

/-- Characters that any mode lets stand for themselves after a backslash: all of ASCII but letters,
digits and angle brackets. -/
def isEscapable (c : Char) : Bool :=
  c.toNat < 128 && !c.isAlphanum && c != '<' && c != '>'

def hexValue? (c : Char) : Option Nat :=
  if c.isDigit then some (c.toNat - '0'.toNat)
  else if 'a' ≤ c && c ≤ 'f' then some (c.toNat - 'a'.toNat + 10)
  else if 'A' ≤ c && c ≤ 'F' then some (c.toNat - 'A'.toNat + 10)
  else none

/-- The character of a code point, unless it is none. -/
def charOfCode (n : Nat) : Except PatternError Char :=
  if n.isValidChar then .ok (Char.ofNat n) else .error .badHexadecimal

/-- Reads `count` hexadecimal digits. -/
def scanHexDigits (m : Modes) : Nat → Nat → List Char → Except PatternError (Nat × List Char)
  | 0, value, cs => .ok (value, cs)
  | count + 1, value, cs =>
    match m.skip cs with
    | [] => .error .badHexadecimal
    | c :: rest =>
      match hexValue? c with
      | some d => scanHexDigits m count (16 * value + d) rest
      | none => .error .badHexadecimal

/-- Reads hexadecimal digits up to the closing brace; `fuel` bounds their number. -/
def scanHexBrace (m : Modes) :
    Nat → Option Nat → List Char → Except PatternError (Nat × List Char)
  | 0, _, _ => .error .badHexadecimal
  | fuel + 1, value?, cs =>
    match m.skip cs, value? with
    | [], _ => .error .badHexadecimal
    | '\x7d' :: rest, some value => .ok (value, rest)
    | '\x7d' :: _, none => .error .badHexadecimal
    | c :: rest, _ =>
      match hexValue? c with
      | some d => scanHexBrace m fuel (some (16 * value?.getD 0 + d)) rest
      | none => .error .badHexadecimal

/-- Reads the digits of a hexadecimal escape that has `digits` digits without braces. -/
def scanHex (m : Modes) (digits : Nat) (cs : List Char) : Except PatternError (Atom × List Char) :=
  match m.skip cs with
  | '\x7b' :: rest => do
    let (value, rest) ← scanHexBrace m (rest.length + 1) none rest
    return (.literal (← charOfCode value), rest)
  | rest => do
    let (value, rest) ← scanHexDigits m digits 0 rest
    let c ← charOfCode value
    return (if digits = 2 then .byte value else .literal c, rest)

/-- The characters up to the closing brace and the rest; `fuel` bounds their number. -/
def scanBraceName (m : Modes) : Nat → List Char → Option (List Char × List Char)
  | 0, _ => none
  | fuel + 1, cs =>
    match m.skip cs with
    | [] => none
    | '\x7d' :: rest => some ([], rest)
    | c :: rest => (scanBraceName m fuel rest).map fun r => (c :: r.1, r.2)

/-- The first place of `!=` as a split of the text around it. -/
def splitNotEqual? : List Char → Option (List Char × List Char)
  | [] => none
  | '!' :: '=' :: rest => some ([], rest)
  | c :: cs => (splitNotEqual? cs).map fun r => (c :: r.1, r.2)

/-- The class that the text between the braces of a property escape names. -/
def propertyOfText (text : List Char) : Except PatternError CharClass :=
  let byValue (parts : List Char × List Char) :=
    classOfValue? (String.ofList parts.1) (String.ofList parts.2)
  let found :=
    match (splitNotEqual? text).or ((splitOnce? ':' text).or (splitOnce? '=' text)) with
    | some parts => byValue parts
    | none => classNamed? (String.ofList text)
  match found with
  | some cls => .ok cls
  | none => .error .unknownProperty

/-- Reads a property escape after its letter. -/
def scanProperty (m : Modes) (negated : Bool) (cs : List Char) :
    Except PatternError (Atom × List Char) :=
  match m.skip cs with
  | [] => .error .badEscape
  | '\x7b' :: rest =>
    match scanBraceName m (rest.length + 1) rest with
    | none => .error .badEscape
    | some (name, rest) => do
      return (.property (← propertyOfText name) negated, rest)
  | '\\' :: _ => .error .unknownProperty
  | c :: rest => do
    return (.property (← propertyOfText [c]) negated, rest)

/-- Letters and hyphens: what names of special word boundaries are made of. -/
def isBoundaryNameChar (c : Char) : Bool :=
  c.isAlpha || c == '-'

/-- The name of a special word boundary and the rest after it; `fuel` bounds its length. -/
def scanBoundaryName (m : Modes) : Nat → List Char → List Char × List Char
  | 0, cs => ([], cs)
  | fuel + 1, cs =>
    match cs with
    | c :: rest =>
      if isBoundaryNameChar c then
        let (name, rest) := scanBoundaryName m fuel (m.skip rest)
        (c :: name, rest)
      else ([], cs)
    | [] => ([], [])

/-- Reads what follows the letter of a word boundary: perhaps a name in braces. -/
def scanWordBoundary (m : Modes) (cs : List Char) : Except PatternError (Look × List Char) :=
  match cs with
  | '\x7b' :: inner =>
    match m.skip inner with
    | [] => .error .badWordBoundary
    | c :: rest =>
      if !isBoundaryNameChar c then .ok (.wordBoundary m.word, cs)
      else
        let (name, rest) := scanBoundaryName m (rest.length + 2) (c :: rest)
        match rest with
        | '\x7d' :: rest =>
          match String.ofList name with
          | "start" => .ok (.wordStart m.word, rest)
          | "end" => .ok (.wordEnd m.word, rest)
          | "start-half" => .ok (.noWordBefore m.word, rest)
          | "end-half" => .ok (.noWordAfter m.word, rest)
          | _ => .error .badWordBoundary
        | _ => .error .badWordBoundary
  | _ => .ok (.wordBoundary m.word, cs)

/-- The control characters with escapes of their own. -/
def controlChar? : Char → Option Char
  | 'a' => some '\x07'
  | 'f' => some '\x0c'
  | 't' => some '\t'
  | 'n' => some '\n'
  | 'r' => some '\r'
  | 'v' => some '\x0b'
  | _ => none

/-- The shorthand classes by their letters; capitals negate. -/
def shorthand? : Char → Option Atom
  | 'd' => some (.shorthand .digit false)
  | 'D' => some (.shorthand .digit true)
  | 's' => some (.shorthand .blank false)
  | 'S' => some (.shorthand .blank true)
  | 'w' => some (.shorthand .word false)
  | 'W' => some (.shorthand .word true)
  | _ => none

/-- The assertions with escapes of their own. -/
def assertion? (m : Modes) : Char → Option Look
  | 'A' => some .textStart
  | 'z' => some .textEnd
  | 'B' => some (.notWordBoundary m.word)
  | '<' => some (.wordStart m.word)
  | '>' => some (.wordEnd m.word)
  | _ => none

/-- Reads the atom after a backslash. -/
def Atom.scanEscape (m : Modes) (cs : List Char) : Except PatternError (Atom × List Char) :=
  match cs with
  | [] => .error .badEscape
  | c :: rest =>
    if c.isDigit then .error .backreference
    else if c == 'x' then scanHex m 2 rest
    else if c == 'u' then scanHex m 4 rest
    else if c == 'U' then scanHex m 8 rest
    else if c == 'p' then scanProperty m false rest
    else if c == 'P' then scanProperty m true rest
    else if c == 'b' then (scanWordBoundary m rest).map fun r => (.assertion r.1, r.2)
    else if isEscapable c then .ok (.literal c, rest)
    else
      match shorthand? c, controlChar? c, assertion? m c with
      | some a, _, _ => .ok (a, rest)
      | _, some d, _ => .ok (.literal d, rest)
      | _, _, some look => .ok (.assertion look, rest)
      | _, _, _ => .error .badEscape

end RefRules.Pattern
