import RefRules.Numeral

/-!
# RefRules — JSON values

JSON values as they are written: numbers keep their texts, objects keep every key in order. Main
definitions:

* `Json.int?` — the integer that a number is written as;
* `Json.render` — the compact text of a value.
-/

namespace RefRules

inductive Json where
  | null
  | bool (value : Bool)
  | number (text : String)
  | string (text : String)
  | brokenString
  | array (items : List Json)
  | object (members : List (String × Json))

namespace Json

/-! ## Views -/

/-- The number that digits stand for, if there are only digits. -/
def digits? (cs : List Char) : Option Nat :=
  if !cs.isEmpty && cs.all Char.isDigit then
    some (cs.foldl (fun n c => 10 * n + (c.toNat - '0'.toNat)) 0)
  else none

/-- The integer of a number without fraction and exponent; minus zero is none. -/
def int? : Json → Option Int
  | number text =>
    match text.toList with
    | '-' :: cs => (digits? cs).bind fun n => if n = 0 then none else some (-(n : Int))
    | cs => (digits? cs).map fun n => (n : Int)
  | _ => none

def string? : Json → Option String
  | string text => some text
  | _ => none

def bool? : Json → Option Bool
  | bool value => some value
  | _ => none

def array? : Json → Option (List Json)
  | array items => some items
  | _ => none

/-- The value of a key; of several equal keys the last counts. -/
def field? (j : Json) (key : String) : Option Json :=
  match j with
  | object members => (members.reverse.find? fun m => m.1 == key).map (·.2)
  | _ => none

def ofInt (n : Int) : Json :=
  number (toString n)

def ofNat (n : Nat) : Json :=
  number (toString n)

/-! ## Writing -/

/-- A character inside of a string. -/
def escape (c : Char) : String :=
  match c with
  | '"' => "\\\""
  | '\\' => "\\\\"
  | '\n' => "\\n"
  | '\r' => "\\r"
  | '\t' => "\\t"
  | '\x08' => "\\b"
  | '\x0c' => "\\f"
  | c =>
    if c.toNat < 32 then "\\u" ++ Numeral.padLeft '0' 4 (Numeral.hexDigits c.toNat)
    else c.toString

/-- A string with its quotes. -/
def renderString (s : String) : String :=
  "\"" ++ String.join (s.toList.map escape) ++ "\""

mutual

/-- The compact text of a value. -/
def render : Json → String
  | null => "null"
  | bool value => if value then "true" else "false"
  | number text => text
  | string text => renderString text
  | brokenString => "\"\""
  | array items => "[" ++ ",".intercalate (renderItems items) ++ "]"
  | object members => "\x7b" ++ ",".intercalate (renderMembers members) ++ "\x7d"

def renderItems : List Json → List String
  | [] => []
  | item :: items => item.render :: renderItems items

def renderMembers : List (String × Json) → List String
  | [] => []
  | (key, value) :: members => (renderString key ++ ":" ++ value.render) :: renderMembers members

end

end Json

end RefRules
