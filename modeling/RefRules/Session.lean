import RefRules.Config
import RefRules.Heap.Walk
import RefRules.Rule.Groups
import RefRules.Warnings

/-!
# RefRules — analysis sessions

A `Session` holds the rule groups for one type layout, and what follows from the enabled ones: the
bound ruleset and the table of pointer offsets. Both are derived when they are asked for, and
dropped when the groups change. Main definitions:

* `Session.ruleset`, `Session.offsetTable` — what the enabled rules say, bound now if need be;
* `Session.withHeap` — a question to a heap that shares the session's offsets;
* `Session.ofConfig` — the session that settings ask for.
-/

namespace RefRules

/-- What has been derived from the enabled rules. A table of offsets holds the ruleset that it was
made for. -/
inductive Derived where
  | nothing
  | bound (ruleset : Ruleset)
  | laidOut (table : OffsetTable)

def Derived.ruleset? : Derived → Option Ruleset
  | nothing => none
  | bound ruleset => some ruleset
  | laidOut table => some table.ruleset

structure Session where
  layout : Layout
  groups : GroupStore := {}
  warnings : WarningLog := {}
  options : BindOptions := {}
  derived : Derived := .nothing

namespace Session

/-! ## Rules -/

/-- The rules have changed: nothing is derived any more. -/
def invalidate (s : Session) : Session :=
  { s with derived := .nothing }

/-- Takes over rules that were read. -/
def load (s : Session) (read : Outcome) : Except RuleError (List String) × Session :=
  match s.groups.load read with
  | (.ok names, groups) => (.ok names, { s with groups := groups }.invalidate)
  | (.error e, _) => (.error e, s)

/-- Loads the rules of a file. -/
def loadFile (s : Session) (source : RuleSource) (path : Path) :
    Except RuleError (List String) × Session :=
  s.load (RuleFile.load source path)

/-- Loads the rules of a text as if it were the file `path`. -/
def loadText (s : Session) (source : RuleSource) (path : Path) (text : String) :
    Except RuleError (List String) × Session :=
  s.load (RuleFile.parse source path text)

/-- Takes over groups that were changed, if a group was found. -/
def changed (s : Session) (change : Bool × GroupStore) : Bool × Session :=
  if change.1 then (true, { s with groups := change.2 }.invalidate) else (false, s)

def enable (s : Session) (name : String) : Bool × Session :=
  s.changed (s.groups.enable name)

def disable (s : Session) (name : String) : Bool × Session :=
  s.changed (s.groups.disable name)

/-- Enables exactly the groups with these names; the names without a group come back. -/
def enableOnly (s : Session) (names : List String) : List String × Session :=
  let (missing, groups) := s.groups.enableOnly names
  (missing, { s with groups := groups }.invalidate)

/-- Sets how rules are bound from now on. -/
def withOptions (s : Session) (options : BindOptions) : Session :=
  { s with options := options }

/-! ## Binding -/

/-- A ruleset has been derived. -/
def isBound (s : Session) : Bool :=
  s.derived.ruleset?.isSome

/-- A binding of the enabled rules: the ruleset, and the warnings of it that are new. -/
structure Binding where
  ruleset : Ruleset
  added : List String

/-- Binds the enabled rules. The warnings of an earlier binding are forgotten. -/
def bind (s : Session) : Binding × Session :=
  let (ruleset, messages) := Ruleset.bind s.layout s.groups.enabledRules s.options
  let (added, warnings) := (s.warnings.reset bindPhase).addAll bindPhase messages
  (⟨ruleset, added⟩, { s with warnings := warnings, derived := .bound ruleset })

/-- What the enabled rules say, bound now if need be. -/
def ruleset (s : Session) : Ruleset × Session :=
  match s.derived.ruleset? with
  | some r => (r, s)
  | none =>
    let (binding, s) := s.bind
    (binding.ruleset, s)

/-- The table of pointer offsets of the enabled rules. -/
def offsetTable (s : Session) : OffsetTable × Session :=
  match s.derived with
  | .laidOut table => (table, s)
  | _ =>
    let (ruleset, s) := s.ruleset
    let table := OffsetTable.fresh s.layout ruleset
    (table, { s with derived := .laidOut table })

/-- Answers a question with the table of offsets, and keeps what the question adds to it. -/
def withOffsets {α : Type} (s : Session) (question : OffsetTable → α × OffsetTable) : α × Session :=
  let (table, s) := s.offsetTable
  let (answer, table) := question table
  (answer, { s with derived := .laidOut table })

/-- Answers a question with a heap. -/
def withHeap {α : Type} (s : Session) (snapshot : Snapshot) (format : ObjectFormat)
    (question : Heap → α × Heap) : α × Session :=
  s.withOffsets fun table =>
    let (answer, heap) := question ⟨snapshot, format, table⟩
    (answer, heap.offsets)

/-! ## Settings -/

/-- The warning about an active group that no rule file has. -/
def missingGroupMessage (name : String) : String :=
  s!"active group '{name}' is not defined by any rule file"

/-- Takes over the rules of several files, unless one of them could not be read. -/
def loadAll (s : Session) : List Outcome → Except RuleError Session
  | [] => .ok s
  | read :: reads =>
    match s.load read with
    | (.ok _, s) => s.loadAll reads
    | (.error e, _) => .error e

/-- Enables the active groups of the settings, all groups if there are none, and warns about those
that no rule file has. -/
def activate (s : Session) (active : List String) : Session :=
  if active.isEmpty then s
  else
    let (missing, s) := s.enableOnly active
    { s with warnings := (s.warnings.addAll configPhase (missing.map missingGroupMessage)).2 }

/-- The session that settings ask for, when their rule files have been read. -/
def ofReads (layout : Layout) (c : Config) (reads : List Outcome) : Except RuleError Session :=
  let s : Session := { layout := layout, options := ⟨c.warnUnmatched⟩ }
  (s.loadAll reads).map fun s => s.activate c.activeGroups

/-- The session that settings ask for. -/
def ofConfig (layout : Layout) (source : RuleSource) (c : Config) : Except RuleError Session :=
  ofReads layout c (c.ruleFiles.map (RuleFile.load source))

end Session

end RefRules
