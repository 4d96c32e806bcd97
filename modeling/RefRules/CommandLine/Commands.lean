import RefRules.CommandLine.Arguments
import RefRules.CommandLine.Failure
import RefRules.CommandLine.Transcript

/-!
# RefRules — the commands of the program

`check` reads rule files and lists their groups. `bind` lists the fields of a type layout that the
rules classify. `pointers` lists the slots of one object in a dump of a heap. Main definition:

* `Invocation.run` — what the program writes, and how it ends.
-/

namespace RefRules.CommandLine

open Text

/-! ## Reports -/

/-- The reports on reading a rule file. -/
def readReports (read : Outcome) : List Report :=
  let opened := read.opened.map fun path =>
    ⟨.debug, .ruleFiles, s!"Parsing rule file {path.text}"⟩
  let groups :=
    match read.result with
    | .ok parsed => parsed.map fun g =>
      ⟨.debug, .groups, s!"Group {g.1}: {g.2.length} rules"⟩
    | .error _ => []
  opened ++ groups

/-- The reports on warnings of a phase. -/
def warningReports (phase : String) (messages : List String) : List Report :=
  messages.map fun message => ⟨.warn, .warnings, s!"[{phase}] {message}"⟩

/-- The report on rules with patterns, if there are any. -/
def patternReports (L : Layout) (rules : List Rule) : List Report :=
  let (patterns, types) := (Matcher.ofRules L rules).patternCounts
  if patterns = 0 then []
  else [⟨.debug, .matcher, s!"{patterns} regex rules matched {types} types"⟩]

/-- The reports on binding the enabled rules of a session. -/
def bindReports (s : Session) (b : Session.Binding) : List Report :=
  let rules := s.groups.enabledRules
  let groups := s.groups.enabledNames
  let slots := b.ruleset.size
  [⟨.debug, .timer, "[TIMER] bind started"⟩] ++ patternReports s.layout rules ++
    warningReports bindPhase b.added ++
    [⟨.debug, .rulesets, s!"Bound {rules.length} rules: {slots} classified slots, " ++
        s!"{b.ruleset.anchorCount} anchors"⟩,
      ⟨.info, .session,
        s!"Bound {rules.length} rules from {groups.length} groups into {slots} slots"⟩]

/-- The reports on tables of offsets that have been made. -/
def offsetReports (before after : OffsetTable) : List Report :=
  (after.tables.drop before.computed).map fun entry =>
    ⟨.trace, .offsets, s!"{after.layout.name entry.1}: {entry.2.length} pointer slots"⟩

/-- The report on an array that goes on behind its memory. -/
def cutReports (address : Word) (reading : Except HeapError Heap.Reading) : List Report :=
  match reading with
  | .ok ⟨_, some (index, length)⟩ =>
    [⟨.trace, .heap, s!"Array at {address.text} committed up to element {index} of {length}"⟩]
  | _ => []

/-- The reports on names that a walk did not find. -/
def walkReports (h : Heap) (anchor : Word) (p : Pointer) (selectors : List Selector) :
    List Report :=
  (selectors.flatMap (h.walkFrom anchor p)).filterMap fun encounter =>
    match encounter with
    | .missing name type => some ⟨.debug, .heap, s!"No field '{name}' on {h.layout.name type}"⟩
    | .found _ => none

/-! ## Checking rule files -/

/-- Reads a rule file into a store. -/
def checkFile (source : RuleSource) (store : GroupStore) (path : Path) :
    Run Failure GroupStore := do
  let read := RuleFile.load source path
  reportAll (readReports read)
  match store.load read with
  | (.error e, _) => throw (.ruleFile path e)
  | (.ok _, store) =>
    sayMarked Style.green "[+]" s!"Parsed {path.text}"
    return store

/-- Lists a group with its rules. -/
def sayGroup (g : RuleGroup) : Run Failure Unit := do
  let color := (← read).color
  let count := "(" ++ counted g.rules.length "rule" "rules" ++ ")"
  sayMarked Style.cyan.bold g.name (paint color Style.dimmed count)
  sayAll <| g.rules.map fun r =>
    let location := paintTo color Style.dimmed 28 r.location.text
    s!"    {location} {r.text}"

def check (fs : Files) (config : Config) (files : List Path) : Run Failure Unit := do
  let files := if files.isEmpty then config.ruleFiles else files
  if files.isEmpty then throw .noRuleFiles
  let store ← files.foldlM (checkFile fs.ruleSource) {}
  say ""
  store.groups.forM sayGroup
  say ""
  let rules := counted store.ruleCount "rule" "rules"
  let groups := counted store.groups.length "group" "groups"
  sayMarked Style.blue "[*]" s!"{rules} in {groups}"

/-! ## Sessions -/

/-- The files that are read, up to the first that fails. -/
def untilFailure : List Outcome → List Outcome
  | [] => []
  | read :: reads =>
    match read.result with
    | .ok _ => read :: untilFailure reads
    | .error _ => [read]

/-- The session that settings ask for. -/
def openSession (fs : Files) (config : Config) : Run Failure Session := do
  match config.typeLayout with
  | none => throw .noTypeLayout
  | some path =>
    match Layout.load fs path with
    | .error e => throw (.typeLayout path e)
    | .ok layout =>
      let types := counted layout.count "type" "types"
      sayMarked Style.green "[+]" s!"Loaded {types} from {path.text}"
      let reads := config.ruleFiles.map (RuleFile.load fs.ruleSource)
      reportAll ((untilFailure reads).flatMap readReports)
      match Session.ofReads layout config reads with
      | .error e => throw (.rules e)
      | .ok session =>
        reportAll (warningReports configPhase (session.warnings.messages configPhase))
        let names := ", ".intercalate session.groups.enabledNames
        sayMarked Style.blue "[*]" s!"Active groups: {names}"
        return session

/-- Lists the warnings of a session, if there are any. -/
def sayWarnings (session : Session) : Run Failure Unit := do
  if !session.warnings.isEmpty then
    say ""
    say (← styled Style.yellow.bold (counted session.warnings.count "warning" "warnings"))
    let color := (← read).color
    sayAll <| session.warnings.all.map fun warning =>
      let phase := paint color Style.yellow s!"[{warning.1}]"
      s!"    {phase} {warning.2}"

/-! ## Classified fields -/

/-- Tags between brackets. -/
def bracketed (tags : List String) : String :=
  "[" ++ ", ".intercalate tags ++ "]"

/-- The lines of an entry behind its first: the anchors and the tags that hang on its slot. -/
def entryDetails (color : Bool) (L : Layout) (e : SlotEntry) : List String :=
  let line (keyword text : String) : String := s!"    {paint color Style.cyan keyword} {text}"
  let conditional :=
    if e.zeroTags.isEmpty && e.nonzeroTags.isEmpty then []
    else [line "cond" s!"zero {bracketed e.zeroTags} nonzero {bracketed e.nonzeroTags}"]
  (e.weights.map fun a => line "owns" s!"{a.selector.describe L} ({a.weight})") ++
    (e.tags.map fun a => line "tags" s!"{a.selector.describe L} {bracketed a.tags}") ++
    (e.conditions.map fun a => line "fuse" (a.selector.describe L)) ++ conditional

/-- The lines of a classified slot. -/
def entryLines (color : Bool) (L : Layout) (slot : Slot) (e : SlotEntry) : List String :=
  let name := Numeral.padRight 48 (L.describeField slot.type slot.field)
  let flags := paintTo color Style.green 36 e.flags.text
  let location := paint color Style.dimmed e.location.text
  s!"{name} {flags} {location}" :: entryDetails color L e

def bind (fs : Files) (config : Config) : Run Failure Unit := do
  let session ← openSession fs config
  let (binding, session) := session.bind
  reportAll (bindReports session binding)
  let color := (← read).color
  say ""
  sayAll (binding.ruleset.entries.flatMap fun e => entryLines color session.layout e.1 e.2)
  say ""
  sayMarked Style.blue "[*]"
    (counted binding.ruleset.size "classified field" "classified fields")
  sayWarnings session

/-! ## Slots of an object -/

/-- What hangs on a slot of the object at `anchor`. -/
def pointerDetails (color : Bool) (h : Heap) (anchor : Word) (p : Pointer) : List String :=
  let line (keyword text : String) : String := s!"        {paint color Style.cyan keyword} {text}"
  let conditional := h.conditionalTags p
  ((h.fused anchor p).map fun child => line "fuses" child.text) ++
    ((h.owned anchor p).map fun r =>
      line "owns" s!"{r.child.text} ({r.weight}, {r.location.text})") ++
    ((h.tagged anchor p).map fun r => line "tags" s!"{r.target.text} {bracketed r.tags}") ++
    if conditional.isEmpty then [] else [line "tags" (bracketed conditional)]

/-- The lines of a slot that was read. -/
def pointerLines (color : Bool) (h : Heap) (anchor : Word) (p : Pointer) : List String :=
  let name := Numeral.padRight 44 (h.layout.describeField p.slot.type p.slot.field)
  let flags := paint color Style.green p.flags.text
  s!"    {name} {p.value.text} {flags}" :: pointerDetails color h anchor p

/-- The selectors that are anchored on a slot, in the order in which they are walked. -/
def anchoredSelectors (r : Ruleset) (slot : Slot) : List Selector :=
  (r.conditions slot).map (·.selector) ++ (r.weights slot).map (·.selector) ++
    (r.tags slot).map (·.selector)

/-- The type that the header of the object at `address` tells. -/
def typeAt (snapshot : Snapshot) (format : ObjectFormat) (address : Word) : Except Failure Int :=
  match snapshot.viewAt? address with
  | none => .error (.outsideDump address)
  | some view =>
    match format.typeOf? view with
    | none => .error (.unknownTypeWord address)
    | some type => .ok type

/-- Objects begin with the type word, behind which arrays have their length. -/
def dumpFormat (L : Layout) : ObjectFormat :=
  let header : FixedHeader := ⟨L.wordSize, 0, L.wordSize.bytes, []⟩
  (header.registerAll L.typeWords).format

def pointers (fs : Files) (config : Config) (heap : Path) (base address : Nat)
    (type? : Option Int) : Run Failure Unit := do
  let session ← openSession fs config
  let L := session.layout
  let store ← (fs.readStore heap).mapError (Failure.dump heap)
  let segment : Segment := ⟨Word.ofNat L.wordSize base, View.whole store, false⟩
  let snapshot ← (Snapshot.ofSegments L.wordSize [segment]).mapError Failure.heap
  report ⟨.debug, .segments, s!"Indexed {snapshot.segments.size} heap segments"⟩
  let format := dumpFormat L
  let address := Word.ofNat L.wordSize address
  let type ← (type?.elim (typeAt snapshot format address) Except.ok : Except Failure Int)
  let (binding, session) := session.bind
  reportAll (bindReports session binding)
  let fresh : Heap := ⟨snapshot, format, OffsetTable.fresh L binding.ruleset⟩
  let (reading, h) := fresh.read address type
  reportAll (offsetReports fresh.offsets h.offsets ++ cutReports address reading)
  let reading ← reading.mapError Failure.heap
  let color := (← read).color
  say ""
  sayMarked Style.cyan.bold (L.name type.toNat) address.text
  reading.pointers.forM fun p => do
    sayAll (pointerLines color h address p)
    reportAll (walkReports h address p (anchoredSelectors h.ruleset p.slot))
  say ""
  sayMarked Style.blue "[*]" (counted reading.pointers.length "pointer slot" "pointer slots")
  sayWarnings session

/-! ## Runs -/

/-- The values of the command on top of the settings. -/
def merge (config : Config) (types : Option Path) (files : List Path) (groups : List String) :
    Config :=
  { config with
    typeLayout := types.or config.typeLayout
    ruleFiles := config.ruleFiles ++ files
    activeGroups := if groups.isEmpty then config.activeGroups else groups }

def Command.run (fs : Files) (config : Config) : Command → Run Failure Unit
  | check files => CommandLine.check fs config files
  | bind types files groups => CommandLine.bind fs (merge config types files groups)
  | pointers types heap base address type files =>
    CommandLine.pointers fs (merge config types files []) heap base address type

/-- How a run ends, with what it has written. -/
structure Ending where
  exit : Nat
  output : String
  errors : String
  unread : Option Path := none

/-- The ending of a run that has written a transcript, and failed or not. -/
def Ending.of (color : Bool) (t : Transcript) : Except Failure Unit → Ending
  | .ok _ => ⟨0, joinLines t.output.reverse, joinLines t.errors.reverse, none⟩
  | .error f =>
    let sign := paint color Style.red "[!]"
    let errors := s!"{sign} {f.message}" :: t.errors
    ⟨1, joinLines t.output.reverse, joinLines errors.reverse, f.unread?⟩

namespace Invocation

/-- The settings of a run. -/
def settings (i : Invocation) (fs : Files) : Except Failure Config := do
  let config ← i.options.config.elim (.ok {}) fun path =>
    (Config.load fs path).mapError (Failure.config path)
  return { config with color := config.color && !i.options.noColor }

/-- What the program writes, and how it ends. -/
def run (i : Invocation) (fs : Files) : Ending :=
  match i.settings fs with
  | .error f => Ending.of false {} (.error f)
  | .ok config =>
    let level := (config.level?.getD .warn).raisedBy i.options.verbosity
    let (result, t) := ((i.command.run fs config).run ⟨level, config.color⟩).run.run {}
    Ending.of config.color t result

end Invocation

end RefRules.CommandLine
