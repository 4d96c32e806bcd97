import RefRules.Ruleset.Effect
import RefRules.Ruleset.Matcher

/-!
# RefRules — bound rulesets

A `Ruleset` is what a list of rules says about every slot of a layout. Binding goes through the
types in their order and through the rules about each in theirs. Main definitions:

* `Ruleset.bind` — the ruleset of a list of rules, with the messages of binding;
* `Ruleset.lookup?` — what is said about a slot.
-/

namespace RefRules

/-- The entries of the fields of every type. -/
structure Ruleset where
  table : List (List (Option SlotEntry)) := []

structure BindOptions where
  warnUnmatched : Bool := true

namespace Ruleset

/-! ## Binding -/

/-- The effects of rules on type `t`, each with the index of its rule. -/
def effectsOn (L : Layout) (rules : List Rule) (t : Nat) (indices : List Nat) :
    List (Nat × Effect) :=
  indices.filterMap fun i => rules[i]?.map fun r => (i, r.effectOn L t)

/-- The effects of rules on every type. -/
def effects (L : Layout) (rules : List Rule) : List (List (Nat × Effect)) :=
  let types := List.range L.count
  let matched := ((Matcher.ofRules L rules).rulesForAll L types).1
  types.zipWith (effectsOn L rules) matched

/-- What effects on a type say about its field `f`. -/
def entryOf (effects : List (Nat × Effect)) (f : Nat) : Option SlotEntry :=
  SlotEntry.mergeAll <|
    (effects.flatMap fun e => e.2.entries).filterMap fun entry =>
      if entry.1 = f then some entry.2 else none

/-- The messages about rules that met no field on any type. -/
def unmatchedMessages (rules : List Rule) (effects : List (Nat × Effect)) : List String :=
  rules.zipIdx.filterMap fun r =>
    if effects.any fun e => e.1 == r.2 && e.2.hit then none else some r.1.unmatchedMessage

/-- The ruleset of a list of rules, with the messages of binding in their order. -/
def bind (L : Layout) (rules : List Rule) (options : BindOptions) : Ruleset × List String :=
  let effects := effects L rules
  let table := effects.zipIdx.map fun e =>
    (List.range (L.fields e.2).length).map (entryOf e.1)
  let all := effects.flatten
  let messages := all.flatMap fun e => e.2.messages
  let unmatched := if options.warnUnmatched then unmatchedMessages rules all else []
  (⟨table⟩, messages ++ unmatched)

/-! ## Looking -/

/-- What is said about a slot; nothing is ever said about the elements of an array. -/
def lookup? (r : Ruleset) (slot : Slot) : Option SlotEntry := do
  let field ← slot.field
  let fields ← r.table[slot.type]?
  (fields[field]?).join

def flags (r : Ruleset) (slot : Slot) : Flags :=
  (r.lookup? slot).elim .empty (·.flags)

def location? (r : Ruleset) (slot : Slot) : Option Location :=
  (r.lookup? slot).map (·.location)

def weights (r : Ruleset) (slot : Slot) : List WeightAnchor :=
  (r.lookup? slot).elim [] (·.weights)

def tags (r : Ruleset) (slot : Slot) : List TagAnchor :=
  (r.lookup? slot).elim [] (·.tags)

def conditions (r : Ruleset) (slot : Slot) : List ConditionAnchor :=
  (r.lookup? slot).elim [] (·.conditions)

def zeroTags (r : Ruleset) (slot : Slot) : List String :=
  (r.lookup? slot).elim [] (·.zeroTags)

def nonzeroTags (r : Ruleset) (slot : Slot) : List String :=
  (r.lookup? slot).elim [] (·.nonzeroTags)

/-- The classified slots with their entries, by type and field. -/
def entries (r : Ruleset) : List (Slot × SlotEntry) :=
  r.table.zipIdx.flatMap fun row =>
    row.1.zipIdx.filterMap fun cell => cell.1.map fun entry => (⟨row.2, some cell.2⟩, entry)

/-- The number of classified slots. -/
def size (r : Ruleset) : Nat :=
  r.entries.length

/-- The number of lists of anchors on slots. -/
def anchorCount (r : Ruleset) : Nat :=
  r.entries.countP (fun e => !e.2.weights.isEmpty) + r.entries.countP (fun e => !e.2.tags.isEmpty) +
    r.entries.countP (fun e => !e.2.conditions.isEmpty)

end Ruleset

end RefRules
