/-!
# RefRules — warnings

A `WarningLog` keeps messages by phase: each message once in its phase, phases and messages in the
order in which they came. A phase that is done again is reset first.
-/

namespace RefRules

/-- The phase of binding rules. -/
def bindPhase : String := "bind"

/-- The phase of reading the settings. -/
def configPhase : String := "config"

/-- Messages by phase; a phase has at least one. -/
structure WarningLog where
  phases : List (String × List String) := []

namespace WarningLog

/-- The messages of a phase. -/
def messages (l : WarningLog) (phase : String) : List String :=
  (l.phases.lookup phase).getD []

/-- Puts a message behind those of its phase, which begins here if it is new. -/
def append (phase message : String) : List (String × List String) → List (String × List String)
  | [] => [(phase, [message])]
  | (name, old) :: rest =>
    if name = phase then (name, old ++ [message]) :: rest
    else (name, old) :: append phase message rest

/-- Adds a message, and says whether it is new in its phase. -/
def add (l : WarningLog) (phase message : String) : Bool × WarningLog :=
  if (l.messages phase).contains message then (false, l)
  else (true, ⟨append phase message l.phases⟩)

/-- Adds messages to a phase; those that are new come back. -/
def addAll (l : WarningLog) (phase : String) : List String → List String × WarningLog
  | [] => ([], l)
  | message :: messages =>
    let (isNew, l) := l.add phase message
    let (added, l) := l.addAll phase messages
    (if isNew then message :: added else added, l)

/-- Forgets a phase. -/
def reset (l : WarningLog) (phase : String) : WarningLog :=
  ⟨l.phases.filter fun entry => entry.1 != phase⟩

/-- Every message with its phase. -/
def all (l : WarningLog) : List (String × String) :=
  l.phases.flatMap fun entry => entry.2.map fun message => (entry.1, message)

def count (l : WarningLog) : Nat :=
  l.all.length

def isEmpty (l : WarningLog) : Bool :=
  l.count == 0

end WarningLog

end RefRules
