import RefRules.Layout.Basic
import RefRules.Rule.FieldPath
import RefRules.Slot

/-!
# RefRules — bound selectors

A field path that has been resolved on a layout: static hops, which name fields of types, and for a
dynamic rule a tail of hops by name, which are looked up on the types met on the way.
-/

namespace RefRules

/-- A resolved hop: a field of the type that declares it, or the elements of an array type. -/
inductive StaticHop where
  | field (type field : Nat)
  | elements (type : Nat)
  deriving DecidableEq

def StaticHop.type : StaticHop → Nat
  | field type _ => type
  | elements type => type

structure Selector where
  hops : List StaticHop
  tail : List Hop := []
  deriving DecidableEq

namespace Selector

/-- The selector of a single slot. -/
def ofField (type field : Nat) : Selector :=
  ⟨[.field type field], []⟩

/-- The first hop, which the walk begins at. -/
def anchor? (s : Selector) : Option StaticHop :=
  s.hops.head?

def isDynamic (s : Selector) : Bool :=
  !s.tail.isEmpty

/-! ## Texts -/

def hopText : StaticHop → String
  | .field type field => s!"{type}:{field}"
  | .elements type => s!"{type}:{elementsText}"

/-- The numbers of the hops, and the names of the tail. -/
def text (s : Selector) : String :=
  let hops := "/".intercalate (s.hops.map hopText)
  if s.tail.isEmpty then hops
  else hops ++ " ~> " ++ ".".intercalate (s.tail.map FieldPath.hopText)

def describeHop (L : Layout) : StaticHop → String
  | .field type field => "." ++ L.fieldName type field
  | .elements _ => elementsText

def describeTail : Hop → String
  | .field name => " ~> " ++ name
  | .elements => elementsText

/-- The names of the hops, behind the name of the first type. -/
def describe (s : Selector) (L : Layout) : String :=
  let start :=
    match s.anchor? with
    | some (.field type _) => L.name type
    | _ => ""
  start ++ String.join (s.hops.map (describeHop L)) ++ String.join (s.tail.map describeTail)

end Selector

end RefRules
