import RefRules.Numeral
import RefRules.Regex.Bracket

/-!
# RefRules — reading regular expressions

The reader works through a pattern from left to right with a stack of open groups. A `State` holds
the branches and items of the innermost group, the modes in force, and the groups around it. Main
definitions:

* `State.step` — one sign of a pattern;
* `Regex.parse` — the expression of a pattern text.
-/

namespace RefRules.Pattern

open Text

/-! ## State -/

/-- A part of a branch: its expression, the depth of its nesting, and whether a repetition may follow
it. -/
structure Item where
  regex : Regex
  depth : Nat := 0
  repeatable : Bool := true

/-- A group that is open while the one inside it is read; the items and branches are those before
it, the last one first. -/
structure GroupFrame where
  modes : Modes
  branches : List Item
  items : List Item

/-- What has been read; the last item and the last branch come first. -/
structure State where
  modes : Modes := {}
  branches : List Item := []
  items : List Item := []
  frames : List GroupFrame := []
  names : List (List Char) := []

/-- Two items as one. -/
def joinTwo (combine : Regex → Regex → Regex) (later earlier : Item) : Item where
  regex := combine earlier.regex later.regex
  depth := max later.depth earlier.depth

/-- Items in a row as one: two or more are one level deeper. -/
def joinItems (combine : Regex → Regex → Regex) (items : List Item) : Item :=
  match items with
  | [] => { regex := .empty }
  | [item] => item
  | item :: items =>
    let joined := items.foldl (joinTwo combine) item
    { joined with depth := joined.depth + 1 }

namespace State

def pushItem (s : State) (item : Item) : State :=
  { s with items := item :: s.items }

/-- The branch that is being read. -/
def branch (s : State) : Item :=
  joinItems .seq s.items

/-- Everything in the innermost group. -/
def body (s : State) : Item :=
  joinItems .alt (s.branch :: s.branches)

/-- Opens a group whose content has the given modes. -/
def openGroup (s : State) (modes : Modes) : State :=
  { s with
    modes := modes, branches := [], items := [],
    frames := ⟨s.modes, s.branches, s.items⟩ :: s.frames }

/-- Closes the innermost group and puts it behind the items before it. -/
def closeGroup (s : State) : Except PatternError State :=
  match s.frames with
  | [] => .error .unopenedGroup
  | frame :: frames =>
    let body := s.body
    .ok { s with
      modes := frame.modes, branches := frame.branches, frames := frames,
      items := { regex := body.regex, depth := body.depth + 1 } :: frame.items }

/-- Begins the next branch. -/
def nextBranch (s : State) : State :=
  { s with branches := s.branch :: s.branches, items := [] }

/-- Repeats the last item. -/
def repeatLast (s : State) (min : Nat) (max : Option Nat) : Except PatternError State :=
  match s.items with
  | item :: items =>
    if item.repeatable then
      let repeated : Item := {
        regex := .repeated item.regex min max
        depth := item.depth + 1 }
      .ok { s with items := repeated :: items }
    else .error .repetitionMissing
  | [] => .error .repetitionMissing

end State

/-! ## Groups -/

/-- Reads mode letters up to the sign after them, with that sign. -/
def scanModes : List ModeSign → List Char → Except PatternError (List ModeSign × Char × List Char)
  | _, [] => .error .badMode
  | signs, c :: rest =>
    if c == ':' || c == ')' then
      if signs.getLast? == some .negate then .error .danglingNegation else .ok (signs, c, rest)
    else
      let sign := if c == '-' then ModeSign.negate else .letter c
      if c != '-' && !"imsUuRx".toList.contains c then .error .badMode
      else if signs.contains sign then .error .duplicateMode
      else scanModes (signs ++ [sign]) rest

/-- The characters of group names. -/
def isNameChar (first : Bool) (c : Char) : Bool :=
  c == '_' || (if first then isAlphabetic c
    else c == '.' || c == '[' || c == ']' || isAlphabetic c || isNumeric c)

/-- Reads the name of a group up to its closing bracket. -/
def scanGroupName (cs : List Char) : Except PatternError (List Char × List Char) :=
  match cs.span (· != '>') with
  | (name, '>' :: rest) =>
    match name with
    | [] => .error .badGroupName
    | c :: more =>
      if isNameChar true c && more.all (isNameChar false) then .ok (name, rest)
      else .error .badGroupName
  | _ => .error .badGroupName

/-- Opens a group with a name that no other group has. -/
def State.openNamed (s : State) (cs : List Char) : Except PatternError (State × List Char) := do
  let (name, rest) ← scanGroupName cs
  if s.names.contains name then .error .duplicateGroupName
  else return ({ s with names := name :: s.names }.openGroup s.modes, rest)

/-- Reads what follows an opening parenthesis. -/
def State.scanGroup (s : State) (cs : List Char) : Except PatternError (State × List Char) :=
  match s.modes.skip cs with
  | '?' :: '=' :: _ | '?' :: '!' :: _ | '?' :: '<' :: '=' :: _ | '?' :: '<' :: '!' :: _ =>
    .error .lookAround
  | '?' :: 'P' :: '<' :: rest | '?' :: '<' :: rest => s.openNamed rest
  | '?' :: rest => do
    if rest.isEmpty then .error .unclosedGroup
    else
      let (signs, stop, rest) ← scanModes [] rest
      let modes := s.modes.apply signs
      if stop == ':' then return (s.openGroup modes, rest)
      else if signs.isEmpty then .error .repetitionMissing
      else
        return ({ s with modes := modes }.pushItem { regex := .empty, repeatable := false }, rest)
  | rest => .ok (s.openGroup s.modes, rest)

/-! ## Repetitions -/

/-- The digits at the head of a text; `fuel` bounds their number. -/
def scanDigits (m : Modes) : Nat → List Char → List Char × List Char
  | 0, cs => ([], cs)
  | fuel + 1, cs =>
    match cs with
    | c :: rest =>
      if c.isDigit then
        let (digits, rest) := scanDigits m fuel (m.skip rest)
        (c :: digits, rest)
      else ([], cs)
    | [] => ([], [])

/-- The number that decimal digits stand for. -/
def decimalValue (digits : List Char) : Nat :=
  digits.foldl (fun n c => 10 * n + (c.toNat - '0'.toNat)) 0

/-- Reads a count with blanks around it: `none` without digits. -/
def scanCount (m : Modes) (cs : List Char) : Except PatternError (Option Nat × List Char) :=
  let start := cs.dropWhile isBlank
  let (digits, rest) := scanDigits m start.length start
  let rest := m.skip (rest.dropWhile isBlank)
  if digits.isEmpty then .ok (none, rest)
  else if decimalValue digits < Numeral.limit32 then .ok (some (decimalValue digits), rest)
  else .error .badRepetition

/-- Reads counts up to the closing brace: the least and the greatest number of repetitions. -/
def scanCounts (m : Modes) (cs : List Char) :
    Except PatternError (Nat × Option Nat × List Char) := do
  let (min?, rest) ← scanCount m (m.skip cs)
  match min?, rest with
  | some n, '\x7d' :: rest => return (n, some n, rest)
  | some n, ',' :: rest =>
    match m.skip rest with
    | '\x7d' :: rest => return (n, none, rest)
    | rest =>
      let (max?, rest) ← scanCount m rest
      match max?, rest with
      | some k, '\x7d' :: rest => if n ≤ k then return (n, some k, rest) else .error .badRepetition
      | _, _ => .error .badRepetition
  | _, _ => .error .badRepetition

/-- Skips the sign that asks for the shortest match: which match is found does not matter here. -/
def skipLazySign : List Char → List Char
  | '?' :: rest => rest
  | rest => rest

/-! ## Signs -/

/-- The set of characters of a dot. -/
def Modes.dot (m : Modes) : Except PatternError CharClass :=
  if !m.unicode then .error .invalidText
  else if m.dotAll then .ok fun _ => true
  else if m.crlf then .ok fun c => c != '\n' && c != '\r'
  else .ok fun c => c != '\n'

def Modes.startAnchor (m : Modes) : Look :=
  if m.multiLine then .lineStart m.crlf else .textStart

def Modes.endAnchor (m : Modes) : Look :=
  if m.multiLine then .lineEnd m.crlf else .textEnd

/-- Reads one sign, which begins with `c` and goes on in `rest`. -/
def State.step (s : State) (c : Char) (rest : List Char) :
    Except PatternError (State × List Char) :=
  match c with
  | '(' => s.scanGroup rest
  | ')' => s.closeGroup.map fun s => (s, rest)
  | '|' => .ok (s.nextBranch, rest)
  | '[' => do
    let (nested, rest) ← Bracket.scan s.modes rest
    return (s.pushItem { regex := .one nested.cls, depth := nested.depth }, rest)
  | '?' => (s.repeatLast 0 (some 1)).map fun s => (s, skipLazySign rest)
  | '*' => (s.repeatLast 0 none).map fun s => (s, skipLazySign rest)
  | '+' => (s.repeatLast 1 none).map fun s => (s, skipLazySign rest)
  | '\x7b' => do
    let (min, max, rest) ← scanCounts s.modes rest
    let s ← s.repeatLast min max
    return (s, skipLazySign (s.modes.skip rest))
  | '\\' => do
    let (atom, rest) ← Atom.scanEscape s.modes rest
    return (s.pushItem { regex := ← atom.toRegex s.modes }, rest)
  | '.' => do return (s.pushItem { regex := .one (← s.modes.dot) }, rest)
  | '^' => .ok (s.pushItem { regex := .look s.modes.startAnchor }, rest)
  | '$' => .ok (s.pushItem { regex := .look s.modes.endAnchor }, rest)
  | c => do
    return (s.pushItem { regex := ← (Atom.literal c).toRegex s.modes }, rest)

/-- Reads sign after sign; `fuel` bounds their number. -/
def State.run : Nat → State → List Char → Except PatternError State
  | 0, s, _ => .ok s
  | fuel + 1, s, cs =>
    match s.modes.skip cs with
    | [] => .ok s
    | c :: rest => do
      let (s, rest) ← s.step c rest
      State.run fuel s rest

/-- How deep groups, repetitions and classes may nest. -/
def nestingLimit : Nat := 250

end RefRules.Pattern

namespace RefRules.Regex

open Pattern

/-- The expression of a pattern text. -/
def parse (pattern : List Char) : Except PatternError Regex := do
  let s ← State.run (pattern.length + 1) {} pattern
  if !s.frames.isEmpty then .error .unclosedGroup
  else if nestingLimit < s.body.depth then .error .tooDeep
  else return s.body.regex

end RefRules.Regex
