import RefRules.Ruleset.Entry

/-!
# RefRules — the effect of a rule on a type

A rule that is about a type classifies fields of it by name, or binds a path that begins at one of
its fields. What it cannot do becomes a message. Main definitions:

* `resolveStatic` — the hops of a path along declared types;
* `Rule.effectOn` — the entries and messages of a rule on a type.
-/

namespace RefRules

/-! ## Paths -/

/-- Why a path cannot be bound on a type. -/
inductive BindFault where
  | noFieldName
  | fieldNotFound (name type : String)
  | notArray (type : String)
  | endsOnValue (type : String)
  | singleFieldOnly (verb : Verb)
  deriving DecidableEq

def BindFault.message : BindFault → String
  | noFieldName => "selector must start with a field name"
  | fieldNotFound name type => s!"field '{name}' not found on {type}"
  | notArray type => s!"'[]' used on non-array type {type}"
  | endsOnValue type => s!"selector ends on value type {type}"
  | singleFieldOnly verb => s!"{verb.keyword} applies to a single field"

/-- The hops of a path from type `t` on, and the type at its end. -/
def resolveStatic (L : Layout) : Nat → List Hop → Except BindFault (List StaticHop × Nat)
  | t, [] => .ok ([], t)
  | t, .elements :: hops =>
    match L.element? t with
    | none => .error (.notArray (L.name t))
    | some element => (resolveStatic L element hops).map fun r => (.elements t :: r.1, r.2)
  | t, .field name :: hops =>
    match L.findField t name with
    | none => .error (.fieldNotFound name (L.name t))
    | some (d, f) =>
      (resolveStatic L (L.fieldType d f) hops).map fun r => (.field d f :: r.1, r.2)

/-- The selector of a path that begins at field `f` of type `t` and goes on with `hops`. -/
def bindHops (L : Layout) (dynamic : Bool) (t f : Nat) (hops : List Hop) :
    Except BindFault Selector :=
  if dynamic then .ok ⟨[.field t f], hops⟩
  else
    match resolveStatic L (L.fieldType t f) hops with
    | .error fault => .error fault
    | .ok (rest, last) =>
      if L.isValue last then .error (.endsOnValue (L.name last))
      else .ok ⟨.field t f :: rest, []⟩

/-! ## Entries -/

/-- The field has a value type, and so holds no pointer. -/
def Layout.isValueField (L : Layout) (t f : Nat) : Bool :=
  L.isValue (L.fieldType t f)

/-- A field of a value type is not traced. -/
def markValue (isValue : Bool) (flags : Flags) : Flags :=
  if isValue then flags.combine (.ofMarks { untraced := true }) else flags

/-- The entry of a rule on field `f` of type `t` itself: none for anchors on a value. -/
def Rule.classify? (r : Rule) (L : Layout) (t f : Nat) : Option SlotEntry :=
  let isValue := L.isValueField t f
  let entry (flags : Flags) : SlotEntry :=
    { flags := markValue isValue flags, location := r.location }
  match r.kind with
  | .owns weight _ => some (entry (Flags.empty.withWeight weight))
  | .weak => some (entry (Flags.empty.withWeight (-1)))
  | .external => some (entry (.ofMarks { external := true }))
  | .tagIf tags true =>
    some { entry (.ofMarks { tagIfZero := true }) with zeroTags := mergeTags [] tags }
  | .tagIf tags false =>
    some { entry (.ofMarks { tagIfNonzero := true }) with nonzeroTags := mergeTags [] tags }
  | .tag tags _ =>
    if isValue then none
    else some { entry (.ofMarks { tagAnchor := true }) with
      tags := [⟨.ofField t f, tags, r.location⟩] }
  | .fuseWith =>
    if isValue then none
    else some { entry (.ofMarks { conditionAnchor := true }) with
      conditions := [⟨.ofField t f, r.location⟩] }

/-- The entry of a rule that anchors `selector` on its first field. -/
def Rule.anchor (r : Rule) (isValue : Bool) (selector : Selector) : Except BindFault SlotEntry :=
  let entry (marks : Marks) : SlotEntry :=
    { flags := markValue isValue (.ofMarks marks), location := r.location }
  match r.kind with
  | .owns weight _ =>
    .ok { entry { weightAnchor := true } with weights := [⟨selector, weight, r.location⟩] }
  | .weak => .ok { entry { weightAnchor := true } with weights := [⟨selector, -1, r.location⟩] }
  | .tag tags _ => .ok { entry { tagAnchor := true } with tags := [⟨selector, tags, r.location⟩] }
  | .fuseWith =>
    .ok { entry { conditionAnchor := true } with conditions := [⟨selector, r.location⟩] }
  | .external | .tagIf _ _ => .error (.singleFieldOnly r.kind.verb)

/-- Binds the path of a rule on type `t`: the field it begins at, with its entry. -/
def Rule.bindPath (r : Rule) (L : Layout) (t : Nat) : Except BindFault (Nat × SlotEntry) :=
  match r.path.hops with
  | .field name :: hops =>
    match L.findDeclared t name with
    | none => .error (.fieldNotFound name (L.name t))
    | some f => do
      let selector ← bindHops L r.kind.isDynamic t f hops
      let entry ← r.anchor (L.isValueField t f) selector
      return (f, entry)
  | _ => .error .noFieldName

/-! ## Effects -/

/-- What a rule does on a type it is about: whether it met a field, the entries by field, and the
messages. -/
structure Effect where
  hit : Bool
  entries : List (Nat × SlotEntry)
  messages : List String

/-- The message about a field that has a value type although the rule names it. -/
def Rule.valueMessage (r : Rule) (L : Layout) (t f : Nat) : String :=
  s!"{r.location.text}: {r.kind.verb.keyword} needs a reference field, " ++
    s!"{L.describeField t (some f)} is a value type"

/-- The message about a path that cannot be bound. -/
def Rule.pathMessage (r : Rule) (fault : BindFault) : String :=
  s!"{r.location.text}: {fault.message} (selector '{r.path.text}')"

/-- The message about a rule that met no field at all. -/
def Rule.unmatchedMessage (r : Rule) : String :=
  s!"{r.location.text}: rule {r.text} never matched any field"

/-- The fields of type `t` whose names fit `pattern`. -/
def Layout.fieldsMatching (L : Layout) (t : Nat) (pattern : String) : List Nat :=
  (List.range (L.fields t).length).filter fun f =>
    FieldPath.matchesField pattern (L.fieldName t f)

/-- What a rule with a pattern of field names does on type `t`. -/
def Rule.patternEffect (r : Rule) (L : Layout) (t : Nat) (pattern : String) : Effect :=
  let fields := L.fieldsMatching t pattern
  { hit := !fields.isEmpty
    entries := fields.filterMap fun f => (r.classify? L t f).map fun entry => (f, entry)
    messages :=
      if FieldPath.isExactPattern pattern then
        (fields.filter fun f => (r.classify? L t f).isNone).map (r.valueMessage L t)
      else [] }

/-- What a rule with a path does on type `t`. -/
def Rule.pathEffect (r : Rule) (L : Layout) (t : Nat) : Effect :=
  match r.bindPath L t with
  | .ok bound => ⟨true, [bound], []⟩
  | .error fault => ⟨true, [], [r.pathMessage fault]⟩

/-- What a rule does on a type it is about. -/
def Rule.effectOn (r : Rule) (L : Layout) (t : Nat) : Effect :=
  match r.path.pattern? with
  | some pattern => r.patternEffect L t pattern
  | none => r.pathEffect L t

end RefRules
