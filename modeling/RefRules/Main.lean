import RefRules.CommandLine.Commands

/-!
# RefRules — the program

Runs the command that the arguments ask for, and prints what it writes. A run that needs a file
which has not been read ends there; the file is read and the run is done again.
-/

namespace RefRules.CommandLine

/-- The number of a system error, which some errors carry with its sign turned. -/
def errorNumber (code : UInt32) : UInt32 :=
  if code < 2147483648 then code else 0 - code

/-- Why the system does not give a file. -/
def fileError (e : IO.Error) : FileError :=
  match e with
  | .noFileOrDirectory .. => .notFound
  | .inappropriateType _ code details | .invalidArgument _ code details
  | .permissionDenied _ code details | .resourceExhausted _ code details =>
    match (errorNumber code).toNat with
    | 20 => .notDirectory
    | 21 => .isDirectory
    | 36 => .nameTooLong
    | n => .other (details ++ " (os error " ++ toString n ++ ")")
  | e => .other e.toString

/-- The bytes of a file, or why there are none. -/
def readFile (p : Path) : IO (Except FileError ByteArray) := do
  try
    return .ok (← IO.FS.readBinFile p.text)
  catch e =>
    return .error (fileError e)

/-- Runs a command with the files that have been read, and reads more as it needs them. -/
partial def runWith (i : Invocation) (known : List (Path × Except FileError ByteArray)) :
    IO Ending := do
  let ending := i.run (Files.ofKnown known)
  match ending.unread with
  | none => return ending
  | some path => runWith i ((path, ← readFile path) :: known)

end RefRules.CommandLine

open RefRules.CommandLine

def main (arguments : List String) : IO UInt32 := do
  match Invocation.parse arguments with
  | none =>
    IO.eprintln "usage: [-c CONFIG] [-v] [--no-color] check|bind|pointers [OPTIONS] [FILES]"
    return 2
  | some invocation =>
    let ending ← runWith invocation []
    IO.print ending.output
    IO.eprint ending.errors
    return ending.exit.toUInt32
