import RefRules.Json.Basic

/-!
# RefRules — reading JSON

A strict reader: one value with blanks around it and nothing behind. A string may hold half of a
surrogate pair only where its text does not matter. Main definition:

* `Json.parse` — the value of a text.
-/

namespace RefRules.Json

/-! ## Pieces -/

def isBlank (c : Char) : Bool :=
  c == ' ' || c == '\n' || c == '\t' || c == '\r'

def skipBlanks (cs : List Char) : List Char :=
  cs.dropWhile isBlank

def hexValue? (c : Char) : Option Nat :=
  if c.isDigit then some (c.toNat - '0'.toNat)
  else if 'a' ≤ c && c ≤ 'f' then some (c.toNat - 'a'.toNat + 10)
  else if 'A' ≤ c && c ≤ 'F' then some (c.toNat - 'A'.toNat + 10)
  else none

/-- The number in four hexadecimal digits. -/
def unit? : List Char → Option (Nat × List Char)
  | a :: b :: c :: d :: rest => do
    let a ← hexValue? a
    let b ← hexValue? b
    let c ← hexValue? c
    let d ← hexValue? d
    return (((a * 16 + b) * 16 + c) * 16 + d, rest)
  | _ => none

def simpleEscape? : Char → Option Char
  | '"' => some '"'
  | '\\' => some '\\'
  | '/' => some '/'
  | 'b' => some '\x08'
  | 'f' => some '\x0c'
  | 'n' => some '\n'
  | 'r' => some '\r'
  | 't' => some '\t'
  | _ => none

/-- The character of a `\u` escape, given its first unit, and the rest; no character for half of a
pair. -/
def surrogate (unit : Nat) (rest : List Char) : Option Char × List Char :=
  if 0xD800 ≤ unit && unit < 0xDC00 then
    match rest with
    | '\\' :: 'u' :: more =>
      match unit? more with
      | some (low, rest') =>
        if 0xDC00 ≤ low && low < 0xE000 then
          (some (Char.ofNat (0x10000 + (unit - 0xD800) * 1024 + (low - 0xDC00))), rest')
        else (none, rest)
      | none => (none, rest)
    | _ => (none, rest)
  else if 0xDC00 ≤ unit && unit < 0xE000 then (none, rest)
  else (some (Char.ofNat unit), rest)

/-- Adds a character in front of a string, unless either is broken. -/
def consChar (c? : Option Char) (text? : Option (List Char)) : Option (List Char) :=
  match c?, text? with
  | some c, some text => some (c :: text)
  | _, _ => none

/-- Reads a string behind its opening quote: its text, unless it is broken, and the rest. `fuel`
bounds its length. -/
def scanString : Nat → List Char → Option (Option (List Char) × List Char)
  | 0, _ => none
  | fuel + 1, cs =>
    match cs with
    | [] => none
    | '"' :: rest => some (some [], rest)
    | '\\' :: 'u' :: rest => do
      let (unit, rest) ← unit? rest
      let (c?, rest) := surrogate unit rest
      let (text?, rest) ← scanString fuel rest
      return (consChar c? text?, rest)
    | '\\' :: c :: rest => do
      let c ← simpleEscape? c
      let (text?, rest) ← scanString fuel rest
      return (consChar (some c) text?, rest)
    | c :: rest =>
      if c.toNat < 32 || c == '\\' then none
      else do
        let (text?, rest) ← scanString fuel rest
        return (consChar (some c) text?, rest)

/-- One digit or more. -/
def scanDigits (cs : List Char) : Option (List Char × List Char) :=
  match cs.span Char.isDigit with
  | ([], _) => none
  | split => some split

/-- The digits before the point: no zero stands in front of others. -/
def scanWhole (cs : List Char) : Option (List Char × List Char) := do
  let (digits, rest) ← scanDigits cs
  match digits with
  | '0' :: _ :: _ => none
  | _ => return (digits, rest)

def scanFraction (cs : List Char) : Option (List Char × List Char) :=
  match cs with
  | '.' :: rest => (scanDigits rest).map fun r => ('.' :: r.1, r.2)
  | _ => some ([], cs)

def scanExponent (cs : List Char) : Option (List Char × List Char) :=
  match cs with
  | c :: rest =>
    if c == 'e' || c == 'E' then
      let (sign, rest) :=
        match rest with
        | '+' :: rest => (['+'], rest)
        | '-' :: rest => (['-'], rest)
        | rest => ([], rest)
      (scanDigits rest).map fun r => (c :: sign ++ r.1, r.2)
    else some ([], cs)
  | [] => some ([], [])

/-- Reads a number: its text and the rest. -/
def scanNumber (cs : List Char) : Option (String × List Char) := do
  let (sign, rest) :=
    match cs with
    | '-' :: rest => (['-'], rest)
    | rest => ([], rest)
  let (whole, rest) ← scanWhole rest
  let (fraction, rest) ← scanFraction rest
  let (exponent, rest) ← scanExponent rest
  return (String.ofList (sign ++ whole ++ fraction ++ exponent), rest)

/-- The text without `word` in front. -/
def dropWord? (word : List Char) (cs : List Char) : Option (List Char) :=
  if word.isPrefixOf cs then some (cs.drop word.length) else none

/-! ## Values -/

mutual

/-- Reads a value behind blanks; `fuel` bounds the number of its parts. -/
def scanValue : Nat → List Char → Option (Json × List Char)
  | 0, _ => none
  | fuel + 1, cs =>
    match skipBlanks cs with
    | [] => none
    | '"' :: rest => do
      let (text?, rest) ← scanString (rest.length + 1) rest
      match text? with
      | some text => return (.string (String.ofList text), rest)
      | none => return (.brokenString, rest)
    | '[' :: rest =>
      match skipBlanks rest with
      | ']' :: rest => some (.array [], rest)
      | rest => do
        let (items, rest) ← scanItems fuel rest
        return (.array items, rest)
    | '\x7b' :: rest =>
      match skipBlanks rest with
      | '\x7d' :: rest => some (.object [], rest)
      | rest => do
        let (members, rest) ← scanMembers fuel rest
        return (.object members, rest)
    | c :: rest =>
      if c == 'n' then (dropWord? "ull".toList rest).map fun r => (.null, r)
      else if c == 't' then (dropWord? "rue".toList rest).map fun r => (.bool true, r)
      else if c == 'f' then (dropWord? "alse".toList rest).map fun r => (.bool false, r)
      else (scanNumber (c :: rest)).map fun r => (.number r.1, r.2)

/-- Reads the items of an array, one at least, and its closing bracket. -/
def scanItems : Nat → List Char → Option (List Json × List Char)
  | 0, _ => none
  | fuel + 1, cs => do
    let (item, rest) ← scanValue fuel cs
    match skipBlanks rest with
    | ',' :: rest =>
      let (items, rest) ← scanItems fuel rest
      return (item :: items, rest)
    | ']' :: rest => return ([item], rest)
    | _ => none

/-- Reads the members of an object, one at least, and its closing brace. -/
def scanMembers : Nat → List Char → Option (List (String × Json) × List Char)
  | 0, _ => none
  | fuel + 1, cs =>
    match skipBlanks cs with
    | '"' :: rest => do
      let (key?, rest) ← scanString (rest.length + 1) rest
      let key ← key?
      match skipBlanks rest with
      | ':' :: rest =>
        let (value, rest) ← scanValue fuel rest
        let member := (String.ofList key, value)
        match skipBlanks rest with
        | ',' :: rest =>
          let (members, rest) ← scanMembers fuel rest
          return (member :: members, rest)
        | '\x7d' :: rest => return ([member], rest)
        | _ => none
      | _ => none
    | _ => none

end

/-- The value of a text. -/
def parse (text : String) : Option Json := do
  let cs := text.toList
  let (value, rest) ← scanValue (2 * cs.length + 2) cs
  if (skipBlanks rest).isEmpty then return value else none

end RefRules.Json
