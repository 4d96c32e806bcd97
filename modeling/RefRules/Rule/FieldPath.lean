import RefRules.Text.Blank

/-!
# RefRules — field paths

The selector of a rule as it is written: names between dots, each perhaps with `[]` behind it, or
a single name that may end in `*`. Main definitions:

* `FieldPath.parse` — reads a path;
* `FieldPath.text` — its canonical text;
* `FieldPath.matchesField` — whether a field's name fits a pattern.
-/

namespace RefRules

open Text

/-- One step of a path. -/
inductive Hop where
  | field (name : String)
  | elements
  deriving DecidableEq

def Hop.hasStar : Hop → Bool
  | field name => name.toList.contains '*'
  | elements => false

/-- The steps of a selector. -/
structure FieldPath where
  hops : List Hop
  deriving DecidableEq

/-- Why a text is not a path. -/
inductive PathFault where
  | empty
  | emptyHop (text : String)
  | malformedElements (text : String)
  | misplacedStar (text : String)
  deriving DecidableEq

def PathFault.message : PathFault → String
  | empty => "empty field selector"
  | emptyHop text => s!"empty hop in selector '{text}'"
  | malformedElements text => s!"malformed array hop in selector '{text}'"
  | misplacedStar text =>
    s!"'*' is only allowed at the end of a single field pattern, found in '{text}'"

/-- The text of a step over all elements of an array. -/
def elementsText : String := "[]"

namespace FieldPath

/-! ## Reading -/

/-- Counts the `[]` at the front of a reversed text. -/
def countElements : List Char → List Char × Nat
  | ']' :: '[' :: rest =>
    let (name, n) := countElements rest
    (name, n + 1)
  | name => (name, 0)

/-- A text without the `[]` at its end, and how many there were. -/
def splitElements (cs : List Char) : List Char × Nat :=
  let (name, n) := countElements cs.reverse
  (name.reverse, n)

/-- The hops of the text between two dots; `whole` is the text of the path, for messages. -/
def parsePart (whole : String) (part : List Char) : Except PathFault (List Hop) :=
  let (name, arrays) := splitElements (trim part)
  if name.isEmpty && arrays == 0 then .error (.emptyHop whole)
  else if name.contains '[' || name.contains ']' then .error (.malformedElements whole)
  else
    let field := if name.isEmpty then [] else [Hop.field (String.ofList name)]
    .ok (field ++ List.replicate arrays .elements)

/-- The hops of the texts between the dots. -/
def parseParts (whole : String) : List (List Char) → Except PathFault (List Hop)
  | [] => .ok []
  | part :: parts => do
    let hops ← parsePart whole part
    let rest ← parseParts whole parts
    return hops ++ rest

/-- A star stands at most at the end of a path of a single name. -/
def starsFit : List Hop → Bool
  | [.field name] => !name.toList.dropLast.contains '*'
  | hops => hops.all fun hop => !hop.hasStar

/-- Reads a path. -/
def parse (text : String) : Except PathFault FieldPath :=
  let cs := trim text.toList
  let whole := String.ofList cs
  if cs.isEmpty then .error .empty
  else do
    let hops ← parseParts whole (splitAll '.' cs)
    if starsFit hops then return ⟨hops⟩ else .error (.misplacedStar whole)

/-! ## Writing -/

def hopText : Hop → String
  | .field name => name
  | .elements => elementsText

/-- A hop after the first one: names stand behind a dot. -/
def laterHopText : Hop → String
  | .field name => "." ++ name
  | .elements => elementsText

/-- The canonical text of a path. -/
def text (p : FieldPath) : String :=
  match p.hops with
  | [] => ""
  | hop :: hops => hopText hop ++ String.join (hops.map laterHopText)

/-! ## Patterns -/

/-- The name of a path of one field: a pattern of field names. -/
def pattern? (p : FieldPath) : Option String :=
  match p.hops with
  | [.field name] => some name
  | _ => none

def isSingleField (p : FieldPath) : Bool :=
  p.pattern?.isSome

/-- The name equals the pattern, or begins as the pattern does before its final star. -/
def matchesField (pattern name : String) : Bool :=
  match stripEnd? ['*'] pattern.toList with
  | some start => start.isPrefixOf name.toList
  | none => pattern == name

/-- The pattern asks for one name exactly. -/
def isExactPattern (pattern : String) : Bool :=
  (stripEnd? ['*'] pattern.toList).isNone

end FieldPath

end RefRules
