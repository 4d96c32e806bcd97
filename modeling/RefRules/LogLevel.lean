/-!
# RefRules — log levels

How much a run reports about itself.
-/

namespace RefRules

/-- Levels from the fewest reports to the most. -/
inductive LogLevel where
  | off
  | error
  | warn
  | info
  | debug
  | trace
  deriving DecidableEq

namespace LogLevel

def all : List LogLevel :=
  [off, error, warn, info, debug, trace]

def name : LogLevel → String
  | off => "OFF"
  | error => "ERROR"
  | warn => "WARN"
  | info => "INFO"
  | debug => "DEBUG"
  | trace => "TRACE"

/-- The level of a name in any case. -/
def ofName? (name : String) : Option LogLevel :=
  match name.toLower with
  | "off" => some off
  | "error" => some error
  | "warn" | "warning" => some warn
  | "info" => some info
  | "debug" => some debug
  | "trace" => some trace
  | _ => none

/-- The place of a level in the order. -/
def rank : LogLevel → Nat
  | off => 0
  | error => 1
  | warn => 2
  | info => 3
  | debug => 4
  | trace => 5

/-- The level `steps` further on, or the last one. -/
def raisedBy (l : LogLevel) (steps : Nat) : LogLevel :=
  (all[l.rank + steps]?).getD trace

/-- Reports of the level `report` are shown at this level. -/
def shows (l report : LogLevel) : Bool :=
  report.rank ≤ l.rank

end LogLevel

end RefRules
