import RefRules.Regex.Engine

/-!
# RefRules — type specs

A type spec says which types a rule is about: `assembly:type` or `assembly:/pattern/`, or either
without an assembly, for types of every assembly. Main definitions:

* `normalizeAssembly` — the form in which assembly names are compared;
* `TypeSpec.parse` — reads a spec;
* `TypeSpec.accepts` — whether a spec accepts a type.
-/

namespace RefRules

open Text

/-- The form in which assembly names are compared: trimmed, in lower-case ASCII, without the file
extension. -/
def normalizeAssembly (name : String) : String :=
  let lower := (trim name.toList).map Char.toLower
  String.ofList ((stripEnd? ".dll".toList lower).getD lower)

/-- Which type names a spec accepts. -/
inductive NamePattern where
  | exact (name : String)
  | regex (pattern : String) (compiled : Regex)

/-- Which types a rule is about; without an assembly, types of every assembly. -/
structure TypeSpec where
  text : String
  assembly : Option String
  name : NamePattern

/-- Why a text is not a type spec. -/
inductive SpecFault where
  | noName (text : String)
  | badPattern (pattern cause : String)
  deriving DecidableEq

def SpecFault.message : SpecFault → String
  | noName text => s!"type spec '{text}' has no type name"
  | badPattern pattern cause =>
    s!"invalid type name regex '{pattern}': {cause}"

/-! ## Compiled patterns -/

/-- Expressions that an engine has compiled, by their patterns. -/
structure RegexCache where
  engine : RegexEngine := .standard
  compiled : List (String × Regex) := []

namespace RegexCache

def size (c : RegexCache) : Nat :=
  c.compiled.length

/-- The expression of a pattern between anchors, compiled only the first time; a pattern that fails is
not kept. -/
def get (c : RegexCache) (pattern : String) : Except SpecFault Regex × RegexCache :=
  match c.compiled.lookup pattern with
  | some regex => (.ok regex, c)
  | none =>
    match c.engine.compile (Regex.anchored pattern) with
    | .ok regex => (.ok regex, { c with compiled := (pattern, regex) :: c.compiled })
    | .error cause => (.error (.badPattern pattern cause), c)

end RegexCache

namespace TypeSpec

/-! ## Reading -/

/-- The assembly and the name in the text of a spec, both trimmed. -/
def parts (text : String) : Option (List Char) × List Char :=
  match splitOnce? ':' text.toList with
  | some (assembly, name) => (some (trim assembly), trim name)
  | none => (none, trim text.toList)

/-- The pattern of a name that stands between slashes. -/
def slashed? (name : List Char) : Option (List Char) :=
  match name with
  | '/' :: rest => stripEnd? ['/'] rest
  | _ => none

/-- The assembly that the text before the colon asks for. -/
def assemblyOf? : Option (List Char) → Option String
  | none | some [] => none
  | some assembly => some (normalizeAssembly (String.ofList assembly))

/-- Reads a spec with the patterns compiled so far. -/
def parseWith (cache : RegexCache) (text : String) : Except SpecFault TypeSpec × RegexCache :=
  let (assembly, name) := parts text
  if name.isEmpty then (.error (.noName text), cache)
  else
    match slashed? name with
    | none => (.ok ⟨text, assemblyOf? assembly, .exact (String.ofList name)⟩, cache)
    | some inner =>
      let pattern := String.ofList inner
      match cache.get pattern with
      | (.ok regex, cache) => (.ok ⟨text, assemblyOf? assembly, .regex pattern regex⟩, cache)
      | (.error fault, cache) => (.error fault, cache)

/-- Reads a spec. -/
def parse (text : String) : Except SpecFault TypeSpec :=
  (parseWith {} text).1

/-- The spec of one type name as it is; an empty assembly stands for every assembly. -/
def exact (assembly name : String) : TypeSpec :=
  let assembly? := if assembly.isEmpty then none else some (normalizeAssembly assembly)
  ⟨assembly?.getD "" ++ ":" ++ name, assembly?, .exact name⟩

/-- Specs are compared by their texts. -/
instance : BEq TypeSpec := ⟨fun a b => a.text == b.text⟩

/-! ## Matching -/

def isRegex (s : TypeSpec) : Bool :=
  match s.name with
  | .regex _ _ => true
  | .exact _ => false

def acceptsAssembly (s : TypeSpec) (assembly : String) : Bool :=
  match s.assembly with
  | some expected => expected == normalizeAssembly assembly
  | none => true

def acceptsName (s : TypeSpec) (name : String) : Bool :=
  match s.name with
  | .exact expected => expected == name
  | .regex _ compiled => compiled.isMatch name

/-- The spec accepts the type `name` of `assembly`. -/
def accepts (s : TypeSpec) (assembly name : String) : Bool :=
  s.acceptsAssembly assembly && s.acceptsName name

end TypeSpec

end RefRules
