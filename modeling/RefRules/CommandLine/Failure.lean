import RefRules.Session

/-!
# RefRules — failures of a run

Why the program ends without an answer. The message names what was being done and then the causes,
each behind the other.
-/

namespace RefRules.CommandLine

/-- Why a run fails. -/
inductive Failure where
  | config (path : Path) (cause : ConfigError)
  | noRuleFiles
  | ruleFile (path : Path) (cause : RuleError)
  | noTypeLayout
  | typeLayout (path : Path) (cause : LayoutError)
  | rules (cause : RuleError)
  | dump (path : Path) (cause : FileError)
  | heap (cause : HeapError)
  | outsideDump (address : Word)
  | unknownTypeWord (address : Word)

/-! ## Causes -/

/-- The message of an error about a file, and behind it that of the file. -/
def withFile (message : String) : Option FileError → List String
  | some cause => [message, cause.message]
  | none => [message]

/-- What a file did not read as, where that is why settings are missing. -/
def configFile? : ConfigError → Option FileError
  | .unreadable cause => some cause
  | _ => none

def ruleFile? : RuleError → Option FileError
  | .unreadable _ cause => some cause
  | _ => none

def layoutFile? : LayoutError → Option FileError
  | .unreadable cause => some cause
  | _ => none

/-- The messages of an error about a layout. -/
def layoutCauses (e : LayoutError) : List String :=
  match e with
  | .memory cause => [e.message, cause.message]
  | _ => withFile e.message (layoutFile? e)

/-- The messages of an error about a heap. -/
def heapCauses (e : HeapError) : List String :=
  match e with
  | .memory cause => [e.message, cause.message]
  | _ => [e.message]

namespace Failure

/-- What was being done, and the causes. -/
def causes : Failure → List String
  | config path cause =>
    s!"loading config {path.text}" :: withFile cause.message (configFile? cause)
  | noRuleFiles => ["no rule files given"]
  | ruleFile path cause =>
    s!"loading rules from {path.text}" :: withFile cause.message (ruleFile? cause)
  | noTypeLayout => ["no type layout; pass --types or set type_layout in the config"]
  | typeLayout path cause => s!"loading type layout {path.text}" :: layoutCauses cause
  | rules cause => withFile cause.message (ruleFile? cause)
  | dump path cause => [s!"mapping {path.text}", s!"IO error: {cause.message}", cause.message]
  | heap cause => heapCauses cause
  | outsideDump address => [s!"{address.text} is outside the heap dump"]
  | unknownTypeWord address => [s!"unknown type word at {address.text}; pass --type"]

def message (f : Failure) : String :=
  ": ".intercalate f.causes

/-- The file whose bytes are not known, where that is the cause. -/
def unread? : Failure → Option Path
  | config path (.unreadable .unread) => some path
  | ruleFile _ (.unreadable path .unread) => some path
  | typeLayout path (.unreadable .unread) => some path
  | rules (.unreadable path .unread) => some path
  | dump path .unread => some path
  | _ => none

end Failure

end RefRules.CommandLine
