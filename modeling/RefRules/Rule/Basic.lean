import RefRules.Rule.FieldPath
import RefRules.Rule.TypeSpec

/-!
# RefRules — rules

A rule says what the fields that its selector names, on the types that its spec accepts, mean to
the program: who owns, what is weak, what gets a tag. Main definitions:

* `Verb` — the keywords, and what each does with its arguments (`Verb.toKind`);
* `RuleKind` — the meaning of a rule;
* `Rule.text` — a rule as it is printed.
-/

namespace RefRules

/-! ## Verbs -/

inductive Verb where
  | owns
  | ownsDynamic
  | weak
  | external
  | tag
  | tagDynamic
  | tagIfZero
  | tagIfNonzero
  | fuseWith
  deriving DecidableEq

namespace Verb

def keyword : Verb → String
  | owns => "OWNS"
  | ownsDynamic => "OWNS_DYNAMIC"
  | weak => "WEAK"
  | external => "EXTERNAL"
  | tag => "TAG"
  | tagDynamic => "TAG_DYNAMIC"
  | tagIfZero => "TAG_IF_ZERO"
  | tagIfNonzero => "TAG_IF_NONZERO"
  | fuseWith => "FUSE_WITH"

def all : List Verb :=
  [owns, ownsDynamic, weak, external, tag, tagDynamic, tagIfZero, tagIfNonzero, fuseWith]

def ofKeyword? (keyword : String) : Option Verb :=
  all.find? fun verb => verb.keyword == keyword

theorem ofKeyword?_keyword (v : Verb) : ofKeyword? v.keyword = some v := by
  cases v <;> decide

end Verb

/-! ## Kinds -/

/-- What a rule says about the slots it selects. -/
inductive RuleKind where
  | owns (weight : Int) (dynamic : Bool)
  | weak
  | external
  | tag (tags : List String) (dynamic : Bool)
  | tagIf (tags : List String) (zero : Bool)
  | fuseWith
  deriving DecidableEq

namespace RuleKind

def verb : RuleKind → Verb
  | owns _ false => .owns
  | owns _ true => .ownsDynamic
  | weak => .weak
  | external => .external
  | tag _ false => .tag
  | tag _ true => .tagDynamic
  | tagIf _ true => .tagIfZero
  | tagIf _ false => .tagIfNonzero
  | fuseWith => .fuseWith

/-- The later hops of the selector are looked up on the types found while walking the heap. -/
def isDynamic : RuleKind → Bool
  | owns _ dynamic => dynamic
  | tag _ dynamic => dynamic
  | _ => false

/-- Kinds that only classify the field itself. -/
def requiresSingleField : RuleKind → Bool
  | external => true
  | tagIf _ _ => true
  | _ => false

/-- The arguments as they are printed: a weight of one is left out. -/
def argumentsText : RuleKind → String
  | owns weight _ => if weight = 1 then "" else s!"({weight})"
  | tag tags _ => "(" ++ ", ".intercalate tags ++ ")"
  | tagIf tags _ => "(" ++ ", ".intercalate tags ++ ")"
  | _ => ""

end RuleKind

/-- A value between the parentheses of a rule. -/
inductive Argument where
  | integer (value : Int)
  | text (value : String)
  deriving DecidableEq

/-- Why a verb does not take the arguments it is given. -/
inductive ArgumentFault where
  | weightOutOfRange (verb : Verb) (weight : Int)
  | oneWeight (verb : Verb)
  | noArguments (verb : Verb)
  | tagsNeeded (verb : Verb)
  deriving DecidableEq

def ArgumentFault.message : ArgumentFault → String
  | weightOutOfRange verb weight => s!"{verb.keyword} weight {weight} is out of range"
  | oneWeight verb => s!"{verb.keyword} takes one integer weight"
  | noArguments verb => s!"{verb.keyword} takes no arguments"
  | tagsNeeded verb => s!"{verb.keyword} takes a list of tags"

/-- A tag is a text that is not empty. -/
def Argument.tag? : Argument → Option String
  | text value => if value.isEmpty then none else some value
  | integer _ => none

/-- The tags of an argument list that holds nothing else, and at least one. -/
def tagList? (args : List Argument) : Option (List String) :=
  if args.isEmpty then none else args.mapM Argument.tag?

namespace Verb

/-- The weight in the arguments: one integer of 32 bits, or one if there is none. -/
def weightOf (v : Verb) : List Argument → Except ArgumentFault Int
  | [] => .ok 1
  | [.integer weight] =>
    if Numeral.isInt32 weight then .ok weight else .error (.weightOutOfRange v weight)
  | _ => .error (.oneWeight v)

/-- The kind without arguments. -/
def bare (v : Verb) (kind : RuleKind) (args : List Argument) : Except ArgumentFault RuleKind :=
  if args.isEmpty then .ok kind else .error (.noArguments v)

/-- The tags in the arguments. -/
def tagsOf (v : Verb) (args : List Argument) : Except ArgumentFault (List String) :=
  match tagList? args with
  | some tags => .ok tags
  | none => .error (.tagsNeeded v)

/-- What a verb means with its arguments. -/
def toKind (v : Verb) (args : List Argument) : Except ArgumentFault RuleKind :=
  match v with
  | owns => (v.weightOf args).map fun weight => .owns weight false
  | ownsDynamic => (v.weightOf args).map fun weight => .owns weight true
  | weak => v.bare .weak args
  | external => v.bare .external args
  | fuseWith => v.bare .fuseWith args
  | tag => (v.tagsOf args).map fun tags => .tag tags false
  | tagDynamic => (v.tagsOf args).map fun tags => .tag tags true
  | tagIfZero => (v.tagsOf args).map fun tags => .tagIf tags true
  | tagIfNonzero => (v.tagsOf args).map fun tags => .tagIf tags false

end Verb

/-! ## Rules -/

/-- Where a rule is written. -/
structure Location where
  file : String
  line : Nat
  deriving DecidableEq

def Location.text (l : Location) : String :=
  s!"{l.file}:{l.line}"

/-- The group of rules that stand under no header. -/
def anonymousGroup : String := "anonymous"

structure Rule where
  spec : TypeSpec
  kind : RuleKind
  path : FieldPath
  location : Location
  group : String

/-- A rule as a statement of a rule file, with nothing escaped. -/
def Rule.text (r : Rule) : String :=
  s!"\"{r.spec.text}\" {r.kind.verb.keyword}{r.kind.argumentsText} \"{r.path.text}\";"

end RefRules
