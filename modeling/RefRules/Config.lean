import RefRules.Files
import RefRules.Layout.Description
import RefRules.LogLevel
import RefRules.Text.Blank
import RefRules.Text.Quoted

/-!
# RefRules — settings

The settings of an analysis: which rule files and groups it uses, on which type layout, and how
it reports. They are read from a JSON file; what the file leaves out keeps its default. Main
definition:

* `Config.load` — the settings in a file, or the first fault.
-/

namespace RefRules

structure Config where
  ruleFiles : List Path := []
  activeGroups : List String := []
  typeLayout : Option Path := none
  logLevel : String := "warn"
  warnUnmatched : Bool := true
  color : Bool := true
  deriving DecidableEq

/-! ## Errors -/

/-- Why a file gives no settings. -/
inductive ConfigError where
  | notFound (path : Path)
  | unsupportedFormat (format : String)
  | unreadable (cause : FileError)
  | syntaxError
  | unknownLogLevel (name : String)
  | emptyGroupName
  deriving DecidableEq

def ConfigError.message : ConfigError → String
  | notFound path => s!"Config file not found: {Text.quoted path.text}"
  | unsupportedFormat format => s!"Unsupported format: {format}"
  | unreadable cause => s!"IO error: {cause.message}"
  | syntaxError => "Parse error: not a record of settings"
  | unknownLogLevel name => s!"Validation error: unknown log level '{name}'"
  | emptyGroupName => "Validation error: empty group name in active_groups"

namespace Config

/-! ## Reading -/

open Json

def path? (j : Json) : Option Path :=
  j.string?.map Path.mk

def ofJson? (j : Json) : Option Config := do
  match ← j.record? ["rule_files", "active_groups", "type_layout", "log_level",
    "warn_unmatched_rules", "color"] with
  | [ruleFiles, activeGroups, typeLayout, logLevel, warnUnmatched, color] =>
    return {
      ruleFiles := ← withDefault [] (listOf? path?) ruleFiles
      activeGroups := ← withDefault [] (listOf? string?) activeGroups
      typeLayout := ← withDefault none (nullable? path?) typeLayout
      logLevel := ← withDefault "warn" string? logLevel
      warnUnmatched := ← withDefault true bool? warnUnmatched
      color := ← withDefault true bool? color }
  | _ => none

/-- The level that the settings ask for. -/
def level? (c : Config) : Option LogLevel :=
  LogLevel.ofName? c.logLevel

/-- What is wrong with settings that could be read. -/
def fault? (c : Config) : Option ConfigError :=
  if c.level?.isNone then some (.unknownLogLevel c.logLevel)
  else if c.activeGroups.any fun name => (Text.trimmed name).isEmpty then some .emptyGroupName
  else none

/-- The settings that a JSON text holds. -/
def ofText (text : String) : Except ConfigError Config :=
  match (Json.parse text).bind ofJson? with
  | none => .error .syntaxError
  | some c =>
    match c.fault? with
    | some e => .error e
    | none => .ok c

/-- The ending that files of settings have, in any case. -/
def format : String := "json"

/-- The settings in a file. -/
def load (fs : Files) (p : Path) : Except ConfigError Config :=
  if !fs.present p then .error (.notFound p)
  else
    let ending := p.extension?.getD ""
    if ending.toLower != format then .error (.unsupportedFormat ending)
    else
      match fs.readText p with
      | .error cause => .error (.unreadable cause)
      | .ok text => ofText text

end Config

end RefRules
