import RefRules.Files
import RefRules.Rule.Statement

/-!
# RefRules — rule files

A rule file declares groups of rules and imports other files. Imports are read in place: a group
of an imported file goes under the group in force at the import. A file that is still being read
may not be imported again. Main definitions:

* `ParsedRules` — the rules of a file by group, in the order the groups were first seen;
* `RuleFile.parse` — the rules of a text, as a file at a path;
* `RuleFile.load` — the rules of a file.
-/

namespace RefRules

/-! ## Parsed rules -/

/-- Rules by the names of their groups, in the order in which the groups were first seen. -/
abbrev ParsedRules := List (String × List Rule)

namespace ParsedRules

/-- Appends `rules` to a group, which begins here if it is new. -/
def append (p : ParsedRules) (group : String) (rules : List Rule) : ParsedRules :=
  match p with
  | [] => [(group, rules)]
  | (name, old) :: rest =>
    if name = group then (name, old ++ rules) :: rest
    else (name, old) :: append rest group rules

/-- The group exists from here on. -/
def touch (p : ParsedRules) (group : String) : ParsedRules :=
  p.append group []

def names (p : ParsedRules) : List String :=
  p.map (·.1)

end ParsedRules

/-! ## Errors and sources -/

/-- Why rules cannot be loaded. -/
inductive RuleError where
  | unreadable (path : Path) (cause : FileError)
  | parse (file : Path) (line : Nat) (fault : StatementFault)
  | importCycle (file : Path) (line : Nat) (path : Path)
  deriving DecidableEq

def RuleError.message : RuleError → String
  | unreadable path cause => s!"Failed to read rule file {path.text}: {cause.message}"
  | parse file line fault => s!"{file.text}:{line}: {fault.message}"
  | importCycle file line path => s!"{file.text}:{line}: import cycle through {path.text}"

def RuleError.line? : RuleError → Option Nat
  | unreadable _ _ => none
  | parse _ line _ => some line
  | importCycle _ line _ => some line

/-- Where rule files come from: their texts, or why they cannot be read. No chain of imports
without a cycle is longer than `depth`. -/
structure RuleSource where
  read : Path → Except FileError String
  depth : Nat

/-- The source of a list of files in memory; of two files with the same path the last counts. -/
def RuleSource.ofFiles (files : List (Path × String)) : RuleSource where
  read path :=
    match files.reverse.find? fun file => file.1.same path with
    | some file => .ok file.2
    | none => .error .absent
  depth := files.length + 2

/-- Rule files among the files at large. -/
def Files.ruleSource (fs : Files) : RuleSource where
  read := fs.readText
  depth := fs.depth

/-- What comes of reading a file: the files opened on the way, and the rules. -/
structure Outcome where
  opened : List Path
  result : Except RuleError ParsedRules

namespace RuleFile

/-! ## Reading -/

/-- The name of a group under the group of an import. -/
def composeGroup (outer : Option String) (name : String) : String :=
  match outer with
  | some outer => outer ++ "." ++ name
  | none => name

/-- The group that the groups of an imported file go under. -/
def importGroup (group : String) : Option String :=
  if group = anonymousGroup then none else some group

/-- Carries out statements of the file `path` in turn, from the group in force and the rules so
far. `stack` holds the normal paths of the files that are being read, `importer` reads an imported
file. -/
def runStatements (importer : Path → Option String → ParsedRules → Outcome) (stack : List Path)
    (path : Path) (outer : Option String) (fault? : Option Fault) :
    List Statement → String → ParsedRules → Outcome
  | [], _, rules =>
    match fault? with
    | none => ⟨[], .ok rules⟩
    | some (line, fault) => ⟨[], .error (.parse path line fault)⟩
  | .header name :: statements, _, rules =>
    let group := composeGroup outer name
    runStatements importer stack path outer fault? statements group (rules.touch group)
  | .rule spec kind fields line :: statements, group, rules =>
    let rule : Rule := ⟨spec, kind, fields, ⟨path.text, line⟩, group⟩
    runStatements importer stack path outer fault? statements group (rules.append group [rule])
  | .importFile file line :: statements, group, rules =>
    let target := path.sibling ⟨file⟩
    if stack.contains target.normal then
      ⟨[], .error (.importCycle path line target)⟩
    else
      let imported := importer target (importGroup group) rules
      match imported.result with
      | .error e => ⟨imported.opened, .error e⟩
      | .ok rules =>
        let rest := runStatements importer stack path outer fault? statements group rules
        ⟨imported.opened ++ rest.opened, rest.result⟩

/-- Carries out the statements of a row of tokens in the file `path`. -/
def runTokens (importer : Path → Option String → ParsedRules → Outcome) (stack : List Path)
    (path : Path) (outer : Option String) (tokens : List Token) (rules : ParsedRules) : Outcome :=
  let (statements, fault?) := Statement.all tokens
  runStatements importer stack path outer fault? statements (outer.getD anonymousGroup) rules

/-- Carries out the statements of a text in the file `path`. -/
def runText (importer : Path → Option String → ParsedRules → Outcome) (stack : List Path)
    (path : Path) (text : String) (outer : Option String) (rules : ParsedRules) : Outcome :=
  match Token.scan text with
  | .error (line, fault) => ⟨[], .error (.parse path line (.token fault))⟩
  | .ok tokens => runTokens importer stack path outer tokens rules

/-- Reads the imported file `target`; `depth` bounds the imports inside of each other. -/
def readImport (source : RuleSource) :
    Nat → List Path → Path → Option String → ParsedRules → Outcome
  | 0, _, target, _, _ => ⟨[], .error (.unreadable target .nameTooLong)⟩
  | depth + 1, stack, target, outer, rules =>
    match source.read target with
    | .error cause => ⟨[], .error (.unreadable target cause)⟩
    | .ok text =>
      let stack := target.normal :: stack
      let read := runText (readImport source depth stack) stack target text outer rules
      ⟨target :: read.opened, read.result⟩

/-- Reads a text as the file `path`, which is on the stack. -/
def parseText (source : RuleSource) (depth : Nat) (stack : List Path) (path : Path)
    (text : String) (outer : Option String) (rules : ParsedRules) : Outcome :=
  runText (readImport source depth stack) stack path text outer rules

/-- The rules of a text, read as if it were the file `path`. -/
def parse (source : RuleSource) (path : Path) (text : String) : Outcome :=
  parseText source source.depth [path.normal] path text none []

/-- The rules of the file `path`. -/
def load (source : RuleSource) (path : Path) : Outcome :=
  match source.read path with
  | .error cause => ⟨[], .error (.unreadable path cause)⟩
  | .ok text =>
    let read := parse source path text
    ⟨path :: read.opened, read.result⟩

end RuleFile

end RefRules
