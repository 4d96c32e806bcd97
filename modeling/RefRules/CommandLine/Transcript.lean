import RefRules.CommandLine.Style
import RefRules.LogLevel

/-!
# RefRules — what a run writes

A run writes lines to its output and reports to its log. A report has a level and the part of the
program that it comes from; the level of the run says which reports are shown. Main definitions:

* `Transcript` — the lines that have been written;
* `Run` — steps that write lines and may fail.
-/

namespace RefRules.CommandLine

/-! ## Reports -/

/-- The parts of the program that report. -/
inductive Reporter where
  | ruleFiles
  | groups
  | matcher
  | rulesets
  | offsets
  | segments
  | heap
  | session
  | timer
  | warnings

/-- The name of a part in the log. -/
def Reporter.name : Reporter → String
  | ruleFiles => "heap_classifier::rules::parser"
  | groups => "heap_classifier::rules::groups"
  | matcher => "heap_classifier::rules::matcher"
  | rulesets => "heap_classifier::rules::bound"
  | offsets => "heap_classifier::typesystem::offsets"
  | segments => "heap_classifier::heap::segments"
  | heap => "heap_classifier::heap::interpreter"
  | session => "heap_classifier::session"
  | timer => "heap_classifier::utils::logging"
  | warnings => "heap_classifier::utils::warnings"

structure Report where
  level : LogLevel
  reporter : Reporter
  text : String

/-- The style of a level's name. -/
def levelStyle : LogLevel → Style
  | .off | .error => Style.red.bold
  | .warn => Style.yellow.bold
  | .info => Style.green.bold
  | .debug => Style.blue.bold
  | .trace => Style.magenta.bold

/-- The line of a report. -/
def Report.line (r : Report) (color : Bool) : String :=
  let level := paintTo color (levelStyle r.level) 5 r.level.name
  let reporter := paint color Style.dimmed s!"[{r.reporter.name}]"
  s!"{level} {reporter} {r.text}"

/-! ## Runs -/

/-- The lines that a run has written, the last one first. -/
structure Transcript where
  output : List String := []
  errors : List String := []

/-- What a run is shown by: which reports, and with colours or not. -/
structure Display where
  level : LogLevel
  color : Bool

/-- Steps that write lines and may fail. -/
abbrev Run (ε α : Type) := ReaderT Display (ExceptT ε (StateM Transcript)) α

variable {ε : Type}

/-- Writes a line to the output. -/
def say (line : String) : Run ε Unit :=
  modify fun t => { t with output := line :: t.output }

/-- Writes lines to the output. -/
def sayAll (lines : List String) : Run ε Unit :=
  lines.forM say

/-- Writes a report, if the level of the run shows it. -/
def report (r : Report) : Run ε Unit := do
  let display ← read
  if display.level.shows r.level then
    modify fun t => { t with errors := r.line display.color :: t.errors }

def reportAll (reports : List Report) : Run ε Unit :=
  reports.forM report

/-- The text in a style, as the run is shown. -/
def styled (style : Style) (text : String) : Run ε String := do
  return paint (← read).color style text

/-- Writes a line behind a sign in a style. -/
def sayMarked (style : Style) (sign line : String) : Run ε Unit := do
  let sign ← styled style sign
  say s!"{sign} {line}"

/-- The text of lines, each with its end. -/
def joinLines (lines : List String) : String :=
  String.join (lines.map fun line => line ++ "\n")

end RefRules.CommandLine
