import RefRules.Text.Blank

/-!
# RefRules — options on a command line

How options are written: `--name`, `--name value` and `--name=value`, or with one letter `-n`,
`-n value`, `-nvalue` and `-n=value`, where letters without values may stand together. A value
after a blank does not look like an option; after `--` nothing is an option any more.

Main definitions:

* `takeOption` — reads the option at the front of the arguments;
* `scanArguments` — reads options and words in any order.
-/

namespace RefRules.CommandLine

open Text

/-- An option by its name, with its letter if it has one. -/
structure OptionSpec where
  name : String
  letter : Option Char := none
  hasValue : Bool

/-- What is read from the arguments: an option without a value, one with its value, or a word. -/
inductive Item where
  | flag (name : String)
  | setting (name value : String)
  | word (text : String)
  deriving DecidableEq

/-- The argument is read as an option; a single hyphen is a word. -/
def looksLikeOption (argument : String) : Bool :=
  match argument.toList with
  | ['-'] => false
  | '-' :: _ => true
  | _ => false

/-- An option with the value in the next argument. -/
def settingFrom (spec : OptionSpec) : List String → Option (Item × List String)
  | [] => none
  | value :: rest => if looksLikeOption value then none else some (.setting spec.name value, rest)

/-- Reads an option by its name, which stands behind two hyphens. -/
def takeNamed (specs : List OptionSpec) (text : List Char) (rest : List String) :
    Option (List Item × List String) := do
  let (name, value?) :=
    match splitOnce? '=' text with
    | some (name, value) => (name, some (String.ofList value))
    | none => (text, none)
  let spec ← specs.find? fun s => s.name.toList == name
  match spec.hasValue, value? with
  | true, some value => return ([.setting spec.name value], rest)
  | true, none =>
    let (item, rest) ← settingFrom spec rest
    return ([item], rest)
  | false, none => return ([.flag spec.name], rest)
  | false, some _ => none

/-- The value that is written right behind a letter; an equals sign in front does not count. -/
def attachedValue (text : List Char) : String :=
  match text with
  | '=' :: value => String.ofList value
  | value => String.ofList value

/-- Reads options by their letters, which stand behind a hyphen. -/
def takeLetters (specs : List OptionSpec) : List Char → List String →
    Option (List Item × List String)
  | [], rest => some ([], rest)
  | letter :: letters, rest => do
    let spec ← specs.find? fun s => s.letter == some letter
    if !spec.hasValue then
      let (items, rest) ← takeLetters specs letters rest
      return (.flag spec.name :: items, rest)
    else if letters.isEmpty then
      let (item, rest) ← settingFrom spec rest
      return ([item], rest)
    else return ([.setting spec.name (attachedValue letters)], rest)

/-- Reads the option that the argument begins. -/
def takeOption (specs : List OptionSpec) (argument : String) (rest : List String) :
    Option (List Item × List String) :=
  match argument.toList with
  | '-' :: '-' :: name => takeNamed specs name rest
  | '-' :: letters => takeLetters specs letters rest
  | _ => none

/-- Reads options and words in any order; `fuel` bounds their number. -/
def scanFrom (specs : List OptionSpec) : Nat → List String → Option (List Item)
  | 0, _ => none
  | _, [] => some []
  | fuel + 1, argument :: rest =>
    if argument == "--" then some (rest.map .word)
    else if looksLikeOption argument then do
      let (items, rest) ← takeOption specs argument rest
      return items ++ (← scanFrom specs fuel rest)
    else do return .word argument :: (← scanFrom specs fuel rest)

/-- Reads options and words in any order. -/
def scanArguments (specs : List OptionSpec) (arguments : List String) : Option (List Item) :=
  scanFrom specs (arguments.length + 1) arguments

/-- Reads options up to the first word; `fuel` bounds their number. -/
def leadingFrom (specs : List OptionSpec) : Nat → List String → Option (List Item × List String)
  | 0, _ => none
  | _, [] => some ([], [])
  | fuel + 1, argument :: rest =>
    if looksLikeOption argument then do
      let (items, rest) ← takeOption specs argument rest
      let (more, rest) ← leadingFrom specs fuel rest
      return (items ++ more, rest)
    else some ([], argument :: rest)

/-- Reads options up to the first word. -/
def leadingOptions (specs : List OptionSpec) (arguments : List String) :
    Option (List Item × List String) :=
  leadingFrom specs (arguments.length + 1) arguments

/-! ## Items -/

/-- The words in their order. -/
def words (items : List Item) : List String :=
  items.filterMap fun item => match item with
    | .word text => some text
    | _ => none

/-- How often a flag is given. -/
def flagCount (items : List Item) (name : String) : Nat :=
  items.countP fun item => item == .flag name

/-- The values that an option is given, in their order. -/
def values (items : List Item) (name : String) : List String :=
  items.filterMap fun item => match item with
    | .setting n value => if n == name then some value else none
    | _ => none

/-- The value of an option that is given at most once. -/
def value? (items : List Item) (name : String) : Option (Option String) :=
  match values items name with
  | [] => some none
  | [value] => some (some value)
  | _ => none

end RefRules.CommandLine
