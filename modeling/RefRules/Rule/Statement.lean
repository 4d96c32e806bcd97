import RefRules.Rule.Basic
import RefRules.Rule.Token

/-!
# RefRules — statements of rule files

A rule file is a row of statements: group headers, imports, and rules of the form
`"spec" VERB(arguments) "selector";`. Main definitions:

* `Statement.next` — the first statement of a row of tokens;
* `Statement.all` — every statement up to the first fault.
-/

namespace RefRules

/-- Why a row of tokens is not a statement. -/
inductive StatementFault where
  | token (fault : TokenFault)
  | spec (fault : SpecFault)
  | path (fault : PathFault)
  | argument (fault : ArgumentFault)
  | unknownKeyword (keyword : String)
  | singleField (verb : Verb) (path : String)
  | unexpected (kind : TokenKind)
  | importWithoutName
  | unterminatedRule
  | missingSemicolon
  deriving DecidableEq

def StatementFault.message : StatementFault → String
  | token fault => fault.message
  | spec fault => fault.message
  | path fault => fault.message
  | argument fault => fault.message
  | unknownKeyword keyword => s!"unknown rule keyword '{keyword}'"
  | singleField verb selector => s!"{verb.keyword} applies to a single field, not '{selector}'"
  | unexpected kind => s!"unexpected {kind.text}"
  | importWithoutName => "IMPORT without a file name"
  | unterminatedRule => "unterminated rule"
  | missingSemicolon => "unterminated rule, expected ';'"

/-- A fault with its line. -/
abbrev Fault := Nat × StatementFault

inductive Statement where
  | header (name : String)
  | importFile (file : String) (line : Nat)
  | rule (spec : TypeSpec) (kind : RuleKind) (path : FieldPath) (line : Nat)

namespace Statement

/-! ## Rules -/

/-- Reads arguments up to the closing parenthesis. `value` says that a value is due; a list may be
empty, but it may not end in a comma. -/
def arguments (line : Nat) : Bool → List Argument → List Token →
    Except Fault (List Argument × List Token)
  | _, _, [] => .error (line, .unterminatedRule)
  | true, args, ⟨.integer value, _⟩ :: rest => arguments line false (args ++ [.integer value]) rest
  | true, args, ⟨.string value, _⟩ :: rest => arguments line false (args ++ [.text value]) rest
  | true, args, ⟨.ident value, _⟩ :: rest => arguments line false (args ++ [.text value]) rest
  | false, args, ⟨.comma, _⟩ :: rest => arguments line true args rest
  | value, args, ⟨.rightParen, at'⟩ :: rest =>
    if !value || args.isEmpty then .ok (args, rest) else .error (at', .unexpected .rightParen)
  | _, _, ⟨kind, at'⟩ :: _ => .error (at', .unexpected kind)

/-- The rule of a spec, a verb with its arguments, and a selector. -/
def build (spec : TypeSpec) (verb : Verb) (args : List Argument) (selector : String) (line : Nat) :
    Except Fault Statement := do
  let path ← (FieldPath.parse selector).mapError fun f => (line, .path f)
  let kind ← (verb.toKind args).mapError fun f => (line, .argument f)
  if kind.requiresSingleField && !path.isSingleField then
    .error (line, .singleField verb path.text)
  else
    return .rule spec kind path line

/-- Reads the selector and the semicolon of a rule. -/
def selector (spec : TypeSpec) (verb : Verb) (args : List Argument) (line : Nat) :
    List Token → Except Fault (Statement × List Token)
  | [] => .error (line, .unterminatedRule)
  | ⟨.string text, _⟩ :: rest => do
    let statement ← build spec verb args text line
    match rest with
    | [] => .error (line, .missingSemicolon)
    | ⟨.semicolon, _⟩ :: rest => return (statement, rest)
    | ⟨kind, at'⟩ :: _ => .error (at', .unexpected kind)
  | ⟨kind, at'⟩ :: _ => .error (at', .unexpected kind)

/-- Reads what follows the verb of a rule. -/
def afterVerb (spec : TypeSpec) (verb : Verb) (line : Nat) (tokens : List Token) :
    Except Fault (Statement × List Token) :=
  match tokens with
  | ⟨.leftParen, _⟩ :: rest => do
    let (args, rest) ← arguments line true [] rest
    selector spec verb args line rest
  | tokens => selector spec verb [] line tokens

/-- Reads what follows the type spec of a rule. -/
def afterSpec (spec : TypeSpec) (line : Nat) : List Token → Except Fault (Statement × List Token)
  | [] => .error (line, .unterminatedRule)
  | ⟨.ident keyword, at'⟩ :: rest =>
    match Verb.ofKeyword? keyword with
    | some verb => afterVerb spec verb line rest
    | none => .error (at', .unknownKeyword keyword)
  | ⟨kind, at'⟩ :: _ => .error (at', .unexpected kind)

/-! ## Statements -/

def importKeyword : String := "IMPORT"

/-- Reads the first statement of `token :: rest`. -/
def next (token : Token) (rest : List Token) : Except Fault (Statement × List Token) :=
  match token.kind with
  | .header name => .ok (.header name, rest)
  | .ident name =>
    if name = importKeyword then
      match rest with
      | [] => .error (token.line, .importWithoutName)
      | ⟨.string file, at'⟩ :: rest => .ok (.importFile file at', rest)
      | ⟨kind, at'⟩ :: _ => .error (at', .unexpected kind)
    else .error (token.line, .unexpected token.kind)
  | .string text => do
    let spec ← (TypeSpec.parse text).mapError fun f => (token.line, .spec f)
    afterSpec spec token.line rest
  | kind => .error (token.line, .unexpected kind)

/-- The statements of a row of tokens up to the first fault, which comes last. `fuel` bounds their
number. -/
def upTo : Nat → List Token → List Statement × Option Fault
  | 0, _ => ([], none)
  | _, [] => ([], none)
  | fuel + 1, token :: rest =>
    match next token rest with
    | .error fault => ([], some fault)
    | .ok (statement, rest) =>
      let (statements, fault?) := upTo fuel rest
      (statement :: statements, fault?)

/-- Every statement up to the first fault. -/
def all (tokens : List Token) : List Statement × Option Fault :=
  upTo tokens.length tokens

end Statement

end RefRules
