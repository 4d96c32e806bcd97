import RefRules.Text.Blank

/-!
# RefRules — file paths

A path is a text of segments between slashes. Two paths are the same when their components are:
empty segments and dots do not count, except for a dot at the start; parent segments are not
resolved. Main definitions:

* `Path.components` — what paths are compared by;
* `Path.normal` — a path without what does not count;
* `Path.parent?`, `Path.join` — the directory of a file, and a file of a directory.
-/

namespace RefRules

open Text

structure Path where
  text : String
  deriving DecidableEq

namespace Path

/-- The parts between slashes, as they are. -/
def segments (p : Path) : List (List Char) :=
  splitAll '/' p.text.toList

def isAbsolute (p : Path) : Bool :=
  p.text.toList.head? == some '/'

/-- An empty segment or a dot. -/
def isSilent (segment : List Char) : Bool :=
  segment.isEmpty || segment == ['.']

/-- The segments that count: a dot only at the start of a relative path. -/
def countingSegments (absolute : Bool) : List (List Char) → List (List Char)
  | [] => []
  | first :: rest =>
    let rest := rest.filter fun s => !isSilent s
    if first.isEmpty || (absolute && isSilent first) then rest else first :: rest

/-- Whether the path begins at the root, and its segments that count. -/
def components (p : Path) : Bool × List (List Char) :=
  (p.isAbsolute, countingSegments p.isAbsolute p.segments)

/-- A path from its segments. -/
def ofSegments (segments : List (List Char)) : Path :=
  ⟨String.ofList (['/'].intercalate segments)⟩

/-- The path that is written with its components alone. -/
def normal (p : Path) : Path :=
  let (absolute, segments) := p.components
  if absolute then ⟨"/" ++ (ofSegments segments).text⟩ else ofSegments segments

/-- Two paths with the same components. -/
def same (p q : Path) : Bool :=
  p.normal == q.normal

/-- Drops the silent segments at the end of a path that is given in reverse; the first segment
stays when it is the only one. -/
def dropSilent : List (List Char) → List (List Char)
  | [] => []
  | [first] => [first]
  | last :: rest => if isSilent last then dropSilent rest else last :: rest

/-- The path without its last component: `none` for the root and for the empty path. -/
def parent? (p : Path) : Option Path :=
  let reversed := dropSilent p.segments.reverse
  if p.isAbsolute then
    match reversed with
    | [] | [_] => none
    | _ :: rest =>
      match dropSilent rest with
      | [_] => some ⟨"/"⟩
      | rest => some (ofSegments rest.reverse)
  else
    match reversed with
    | [] => none
    | [first] => if first.isEmpty then none else some ⟨""⟩
    | _ :: rest => some (ofSegments (dropSilent rest).reverse)

/-- The path of `relative` as seen from the directory `p`; an absolute path stands for itself. -/
def join (p relative : Path) : Path :=
  if relative.isAbsolute then relative
  else if p.text.isEmpty || p.text.toList.getLast? == some '/' then ⟨p.text ++ relative.text⟩
  else ⟨p.text ++ "/" ++ relative.text⟩

/-- A file named beside the file `p`. -/
def sibling (p relative : Path) : Path :=
  match p.parent? with
  | some directory => directory.join relative
  | none => relative

/-- The last component, when it names a file. -/
def fileName? (p : Path) : Option (List Char) :=
  match p.components.2.getLast? with
  | some name => if name == ['.'] || name == ['.', '.'] then none else some name
  | none => none

/-- What follows the last dot of the file name, unless that dot is its first character. -/
def extension? (p : Path) : Option String := do
  let name ← p.fileName?
  match name.reverse.span (· != '.') with
  | (ending, '.' :: _ :: _) => some (String.ofList ending.reverse)
  | _ => none

end Path

end RefRules
