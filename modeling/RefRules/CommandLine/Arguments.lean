import RefRules.CommandLine.Options
import RefRules.Numeral
import RefRules.Path

/-!
# RefRules — the arguments of the program

The commands of the program with their options. Some options belong to the program as a whole and
may stand before or behind the name of the command; behind it counts more. Main definition:

* `Invocation.parse` — what a list of arguments asks for.
-/

namespace RefRules.CommandLine

open Text

/-! ## Values -/

/-- The digits of a number to a base below 37, with a plus sign in front or not. -/
def digitsTo? (base : Nat) (text : List Char) : Option Nat :=
  let digits := match text with
    | '+' :: digits => digits
    | digits => digits
  let digit? (c : Char) : Option Nat :=
    let d := if c.isDigit then c.toNat - '0'.toNat
      else if c.isAlpha then c.toLower.toNat - 'a'.toNat + 10 else base
    if d < base then some d else none
  if digits.isEmpty then none
  else (digits.mapM digit?).map fun ds => ds.foldl (fun n d => base * n + d) 0

/-- An address: a number of 64 bits, decimal or hexadecimal behind `0x`. -/
def address? (text : String) : Option Nat :=
  let value :=
    match text.toList with
    | '0' :: 'x' :: digits => digitsTo? 16 digits
    | '0' :: 'X' :: digits => digitsTo? 16 digits
    | digits => digitsTo? 10 digits
  value.filter fun n => n < Numeral.limit64

/-- A signed number of 32 bits. -/
def int32? (text : String) : Option Int :=
  let value : Option Int :=
    match text.toList with
    | '-' :: '+' :: _ => none
    | '-' :: digits => (digitsTo? 10 digits).map fun n => -(n : Int)
    | digits => (digitsTo? 10 digits).map fun n => (n : Int)
  value.filter Numeral.isInt32

/-- A path is not empty. -/
def path? (text : String) : Option Path :=
  if text.isEmpty then none else some ⟨text⟩

/-- A value that is not given, or one that can be read. -/
def optional? {α : Type} (read? : String → Option α) : Option String → Option (Option α)
  | none => some none
  | some text => (read? text).map some

/-! ## Options of the program -/

/-- The options of the program as a whole. -/
structure GlobalOptions where
  config : Option Path := none
  verbosity : Nat := 0
  noColor : Bool := false
  deriving DecidableEq

def globalSpecs : List OptionSpec :=
  [⟨"config", some 'c', true⟩, ⟨"verbose", some 'v', false⟩, ⟨"no-color", none, false⟩]

/-- The most that repeated flags count. -/
def maxVerbosity : Nat := 255

/-- The options of the program among the items of one level, behind those of the level before. -/
def GlobalOptions.extend (outer : GlobalOptions) (items : List Item) : Option GlobalOptions := do
  let config ← (← value? items "config").elim (some none) fun text => (path? text).map some
  let verbosity := flagCount items "verbose"
  let noColor := flagCount items "no-color"
  if 1 < noColor then none
  else return {
    config := config.or outer.config
    verbosity := if verbosity = 0 then outer.verbosity else min verbosity maxVerbosity
    noColor := noColor == 1 || outer.noColor }

/-! ## Commands -/

/-- What the program is to do. -/
inductive Command where
  | check (files : List Path)
  | bind (types : Option Path) (files : List Path) (groups : List String)
  | pointers (types : Option Path) (heap : Path) (base address : Nat) (type : Option Int)
      (files : List Path)
  deriving DecidableEq

structure Invocation where
  options : GlobalOptions
  command : Command
  deriving DecidableEq

def typesSpec : OptionSpec :=
  ⟨"types", some 't', true⟩

/-- The options of a command. -/
def commandSpecs : String → Option (List OptionSpec)
  | "check" => some []
  | "bind" => some [typesSpec, ⟨"group", some 'g', true⟩]
  | "pointers" =>
    some [typesSpec, ⟨"heap", none, true⟩, ⟨"base", none, true⟩, ⟨"address", none, true⟩,
      ⟨"type", none, true⟩]
  | _ => none

/-- A command from its items. -/
def Command.ofItems? (name : String) (items : List Item) : Option Command := do
  let files ← (words items).mapM path?
  let types ← optional? path? (← value? items "types")
  match name with
  | "check" => return .check files
  | "bind" => return .bind types files (values items "group")
  | _ =>
    let heap ← path? (← ← value? items "heap")
    let base ← address? (← ← value? items "base")
    let address ← address? (← ← value? items "address")
    let type ← optional? int32? (← value? items "type")
    return .pointers types heap base address type files

/-- What a list of arguments asks for, if it is in order. -/
def Invocation.parse (arguments : List String) : Option Invocation := do
  let (leading, rest) ← leadingOptions globalSpecs arguments
  let outer ← GlobalOptions.extend {} leading
  match rest with
  | [] => none
  | name :: rest =>
    let items ← scanArguments (globalSpecs ++ (← commandSpecs name)) rest
    return ⟨← outer.extend items, ← Command.ofItems? name items⟩

end RefRules.CommandLine
