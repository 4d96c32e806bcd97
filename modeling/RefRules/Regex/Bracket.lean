import RefRules.Regex.Atom

/-!
# RefRules — bracketed character classes

Classes in brackets hold characters, ranges, named classes and further brackets; `&&`, `--` and
`~~` intersect, subtract and differ, all with one precedence and from the left. The reader keeps
the open brackets and pending operators on a stack. Main definition:

* `Bracket.scan` — the class after an opening bracket, with its nesting depth.
-/

namespace RefRules.Pattern

open Text

/-- A class with the depth of its nesting. -/
structure Nested where
  cls : CharClass
  depth : Nat := 0

/-- The members of a bracket up to the next operator. -/
structure Members where
  cls : CharClass := fun _ => false
  count : Nat := 0
  depth : Nat := 0

namespace Members

def push (u : Members) (item : Nested) : Members where
  cls := fun c => u.cls c || item.cls c
  count := u.count + 1
  depth := max u.depth item.depth

/-- Two members or more are one level deeper than each of them. -/
def toNested (u : Members) : Nested :=
  ⟨u.cls, if 2 ≤ u.count then u.depth + 1 else u.depth⟩

/-- One more character. -/
def pushChar (u : Members) (c : Char) : Members :=
  u.push { cls := fun d => d == c }

end Members

/-- The operators between parts of a bracket. -/
inductive ClassOp where
  | intersection
  | difference
  | symmetricDifference
  deriving DecidableEq

def ClassOp.apply : ClassOp → CharClass → CharClass → CharClass
  | intersection, a, b => fun c => a c && b c
  | difference, a, b => fun c => a c && !b c
  | symmetricDifference, a, b => fun c => a c != b c

/-- The operator at the head of a text. -/
def ClassOp.scan? : List Char → Option (ClassOp × List Char)
  | '&' :: '&' :: rest => some (intersection, rest)
  | '-' :: '-' :: rest => some (difference, rest)
  | '~' :: '~' :: rest => some (symmetricDifference, rest)
  | _ => none

/-- What is open while a bracket is read: a bracket with the members outside of it, or an operator
with its left side. -/
inductive BracketFrame where
  | bracket (negated : Bool) (outer : Members)
  | operator (op : ClassOp) (left : Nested)

namespace Bracket

/-- The named ASCII classes. -/
def asciiClass? : String → Option CharClass
  | "alnum" => some Char.isAlphanum
  | "alpha" => some Char.isAlpha
  | "ascii" => some fun c => c.toNat < 128
  | "blank" => some fun c => c == ' ' || c == '\t'
  | "cntrl" => some fun c => c.toNat < 32 || c.toNat == 127
  | "digit" => some Char.isDigit
  | "graph" => some fun c => 33 ≤ c.toNat && c.toNat ≤ 126
  | "lower" => some Char.isLower
  | "print" => some fun c => 32 ≤ c.toNat && c.toNat ≤ 126
  | "punct" => some fun c => 33 ≤ c.toNat && c.toNat ≤ 126 && !c.isAlphanum
  | "space" => some isAsciiBlank
  | "upper" => some Char.isUpper
  | "word" => some fun c => c.isAlphanum || c == '_'
  | "xdigit" => some isAsciiHexDigit
  | _ => none

/-- The named class at the head of the text after a bracket, with whether it is negated. -/
def scanAsciiClass? : List Char → Option (CharClass × Bool × List Char)
  | ':' :: rest =>
    let (negated, rest) :=
      match rest with
      | '^' :: rest => (true, rest)
      | rest => (false, rest)
    match rest.span (· != ':') with
    | (name, ':' :: ']' :: rest) =>
      (asciiClass? (String.ofList name)).map fun cls => (cls, negated, rest)
    | _ => none
  | _ => none

/-- The hyphens at the start of a bracket stand for themselves; `fuel` bounds their number. -/
def scanHyphens (m : Modes) : Nat → Members → List Char → Members × List Char
  | 0, u, cs => (u, cs)
  | fuel + 1, u, cs =>
    match cs with
    | '-' :: rest => scanHyphens m fuel (u.pushChar '-') (m.skip rest)
    | _ => (u, cs)

/-- Reads the start of a bracket: a negation, hyphens, and a closing bracket that stands for
itself. -/
def scanOpen (m : Modes) (cs : List Char) : Bool × Members × List Char :=
  let (negated, rest) :=
    match m.skip cs with
    | '^' :: rest => (true, m.skip rest)
    | rest => (false, rest)
  let (members, rest) := scanHyphens m rest.length {} rest
  match members.count, rest with
  | 0, ']' :: rest => (negated, members.pushChar ']', m.skip rest)
  | _, rest => (negated, members, rest)

/-- One atom of a bracket. -/
def scanAtom (m : Modes) : List Char → Except PatternError (Atom × List Char)
  | [] => .error .unclosedClass
  | '\\' :: rest => Atom.scanEscape m rest
  | c :: rest => .ok (.literal c, rest)

/-- The first character after blanks and a comment sign, as the look past a hyphen sees it. -/
def peekPastBlanks : Bool → List Char → Option Char
  | _, [] => none
  | inComment, c :: cs =>
    if isBlank c then peekPastBlanks inComment cs
    else if !inComment && c == '#' then peekPastBlanks true cs
    else some c

/-- The hyphen before `rest` makes a range. -/
def opensRange (m : Modes) (rest : List Char) : Bool :=
  let next := if m.ignoreBlanks then peekPastBlanks false rest else rest.head?
  next != some ']' && next != some '-'

/-- The member that an atom is. -/
def memberOf (m : Modes) (a : Atom) : Except PatternError Nested :=
  (a.toClass m).map fun cls => { cls := cls }

/-- Reads a single member or a range. -/
def scanMember (m : Modes) (cs : List Char) : Except PatternError (Nested × List Char) := do
  let (first, rest) ← scanAtom m cs
  match m.skip rest with
  | [] => .error .unclosedClass
  | '-' :: afterHyphen =>
    if opensRange m afterHyphen then
      let (last, rest) ← scanAtom m (m.skip afterHyphen)
      let low ← first.toChar m
      let high ← last.toChar m
      if low ≤ high then
        return ({ cls := fun c => low ≤ c && c ≤ high }, rest)
      else .error .badClassRange
    else return (← memberOf m first, '-' :: afterHyphen)
  | rest => return (← memberOf m first, rest)

/-- Joins a pending operator's left side with `right`. -/
def applyPending (m : Modes) (frames : List BracketFrame) (right : Nested) :
    List BracketFrame × Nested :=
  match frames with
  | .operator op left :: frames =>
    let side (cls : CharClass) := if m.ignoreCase then foldClass m.unicode cls else cls
    (frames, {
      cls := op.apply (side left.cls) (side right.cls)
      depth := max left.depth right.depth + 1 })
  | frames => (frames, right)

/-- Reads the rest of the open brackets; `fuel` bounds the number of members and signs. -/
def scanRest (m : Modes) :
    Nat → List BracketFrame → Members → List Char → Except PatternError (Nested × List Char)
  | 0, _, _, _ => .error .unclosedClass
  | fuel + 1, frames, members, cs =>
    match m.skip cs with
    | [] => .error .unclosedClass
    | '[' :: rest =>
      match scanAsciiClass? rest with
      | some (cls, negated, rest) => do
        scanRest m fuel frames (members.push { cls := ← m.finish negated cls }) rest
      | none =>
        let (negated, inner, rest) := scanOpen m rest
        scanRest m fuel (.bracket negated members :: frames) inner rest
    | ']' :: rest =>
      let (frames, nested) := applyPending m frames members.toNested
      match frames with
      | .bracket negated outer :: frames => do
        let cls ← m.finish negated nested.cls
        let closed : Nested := ⟨cls, nested.depth + 1⟩
        if frames.isEmpty then return (closed, rest)
        else scanRest m fuel frames (outer.push closed) rest
      | _ => .error .unclosedClass
    | cs =>
      match ClassOp.scan? cs with
      | some (op, rest) =>
        let (frames, left) := applyPending m frames members.toNested
        scanRest m fuel (.operator op left :: frames) {} rest
      | none => do
        let (member, rest) ← scanMember m cs
        scanRest m fuel frames (members.push member) rest

/-- The class after an opening bracket. -/
def scan (m : Modes) (cs : List Char) : Except PatternError (Nested × List Char) :=
  let (negated, members, rest) := scanOpen m cs
  scanRest m (rest.length + 1) [.bracket negated {}] members rest

end Bracket

end RefRules.Pattern
