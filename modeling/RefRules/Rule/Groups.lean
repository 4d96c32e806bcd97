import RefRules.Rule.File

/-!
# RefRules — rule groups

A `GroupStore` keeps the groups of all loaded rule files in the order in which they were first
named. New groups start enabled; only the rules of enabled groups are used. Main definitions:

* `GroupStore.add` — merges parsed rules in;
* `GroupStore.enableOnly` — enables exactly the groups with given names;
* `GroupStore.rulesFor` — the rules of the groups with given names.
-/

namespace RefRules

structure RuleGroup where
  name : String
  rules : List Rule := []
  enabled : Bool := true

/-- Named groups of rules, each name once. -/
structure GroupStore where
  groups : List RuleGroup := []

namespace GroupStore

/-! ## Loading -/

/-- Appends rules to the group of a name, which is new and enabled if there is none. -/
def addTo (name : String) (rules : List Rule) : List RuleGroup → List RuleGroup
  | [] => [{ name := name, rules := rules }]
  | group :: groups =>
    if group.name = name then { group with rules := group.rules ++ rules } :: groups
    else group :: addTo name rules groups

/-- Appends parsed rules to their groups. -/
def add (s : GroupStore) (parsed : ParsedRules) : GroupStore :=
  ⟨parsed.foldl (fun groups entry => addTo entry.1 entry.2 groups) s.groups⟩

/-- Takes over the rules that were read; what could not be read changes nothing. -/
def load (s : GroupStore) (read : Outcome) : Except RuleError (List String) × GroupStore :=
  match read.result with
  | .ok parsed => (.ok parsed.names, s.add parsed)
  | .error e => (.error e, s)

/-! ## Looking -/

def names (s : GroupStore) : List String :=
  s.groups.map (·.name)

def contains (s : GroupStore) (name : String) : Bool :=
  s.groups.any fun g => g.name == name

def group? (s : GroupStore) (name : String) : Option RuleGroup :=
  s.groups.find? fun g => g.name == name

def isEmpty (s : GroupStore) : Bool :=
  s.groups.isEmpty

def ruleCount (s : GroupStore) : Nat :=
  s.groups.foldr (fun g n => g.rules.length + n) 0

def enabledNames (s : GroupStore) : List String :=
  (s.groups.filter (·.enabled)).map (·.name)

/-- The rules of the groups with these names, in the order of the store. -/
def rulesFor (s : GroupStore) (active : List String) : List Rule :=
  (s.groups.filter fun g => active.contains g.name).flatMap (·.rules)

/-- The rules of the enabled groups. -/
def enabledRules (s : GroupStore) : List Rule :=
  s.rulesFor s.enabledNames

/-! ## Enabling -/

/-- Enables or disables the group of a name, and says whether there is one. -/
def setEnabled (s : GroupStore) (name : String) (enabled : Bool) : Bool × GroupStore :=
  (s.contains name,
    ⟨s.groups.map fun g => if g.name = name then { g with enabled := enabled } else g⟩)

def enable (s : GroupStore) (name : String) : Bool × GroupStore :=
  s.setEnabled name true

def disable (s : GroupStore) (name : String) : Bool × GroupStore :=
  s.setEnabled name false

/-- Enables exactly the groups with these names; the names without a group come back. -/
def enableOnly (s : GroupStore) (names : List String) : List String × GroupStore :=
  (names.filter fun name => !s.contains name,
    ⟨s.groups.map fun g => { g with enabled := names.contains g.name }⟩)

end GroupStore

end RefRules
