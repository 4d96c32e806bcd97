import RefRules.Layout.Basic
import RefRules.Rule.Basic

/-!
# RefRules — which rules are about a type

A `Matcher` finds the rules whose specs accept a type. Rules with exact names are looked up in a
bucket per assembly, which is made the first time a type of that assembly is asked for; rules with
patterns are tried on all types beforehand. Main definitions:

* `Matcher.ofRules` — the matcher of a list of rules on a layout;
* `Matcher.rulesFor` — the indices of the rules about a type, ascending.
-/

namespace RefRules

/-- Exact names with the indices of their rules. -/
abbrev Bucket := List (String × Nat)

structure Matcher where
  rules : List Rule
  patternMatches : List (List Nat)
  buckets : List (String × Bucket) := []

namespace Matcher

/-- The rules with their indices. -/
def indexed (rules : List Rule) : List (Rule × Nat) :=
  rules.zipIdx

/-- The rules with patterns. -/
def patternRules (rules : List Rule) : List (Rule × Nat) :=
  (indexed rules).filter fun r => r.1.spec.isRegex

/-- The indices of the rules with patterns that accept type `t`. -/
def patternsFor (L : Layout) (rules : List Rule) (t : Nat) : List Nat :=
  ((patternRules rules).filter fun r => r.1.spec.accepts (L.assembly t) (L.name t)).map (·.2)

def ofRules (L : Layout) (rules : List Rule) : Matcher where
  rules := rules
  patternMatches := (List.range L.count).map (patternsFor L rules)

/-- The exact name of a rule that may be about types of the normalized assembly `key`. -/
def exactName? (key : String) (r : Rule) : Option String :=
  match r.spec.name with
  | .exact name => if r.spec.assembly.all (· == key) then some name else none
  | .regex _ _ => none

/-- The bucket of the normalized assembly `key`. -/
def bucketOf (rules : List Rule) (key : String) : Bucket :=
  (indexed rules).filterMap fun r => (exactName? key r.1).map fun name => (name, r.2)

/-- The bucket of an assembly, made now if it is not there yet. -/
def bucket (m : Matcher) (assembly : String) : Bucket × Matcher :=
  let key := normalizeAssembly assembly
  match m.buckets.lookup key with
  | some b => (b, m)
  | none =>
    let b := bucketOf m.rules key
    (b, { m with buckets := m.buckets ++ [(key, b)] })

/-- The indices of the rules about type `t`, ascending. -/
def rulesFor (m : Matcher) (L : Layout) (t : Nat) : List Nat × Matcher :=
  let (b, m) := m.bucket (L.assembly t)
  let exact := (b.filter fun entry => entry.1 == L.name t).map (·.2)
  match (m.patternMatches[t]?).getD [] with
  | [] => (exact, m)
  | patterns => ((exact ++ patterns).mergeSort (· ≤ ·), m)

/-- The answers to a row of questions. -/
def rulesForAll (m : Matcher) (L : Layout) : List Nat → List (List Nat) × Matcher
  | [] => ([], m)
  | t :: ts =>
    let (answer, m) := m.rulesFor L t
    let (answers, m) := m.rulesForAll L ts
    (answer :: answers, m)

/-- How many assemblies have a bucket. -/
def cachedAssemblies (m : Matcher) : Nat :=
  m.buckets.length

/-- How many rules have patterns, and how many types one of them accepts. -/
def patternCounts (m : Matcher) : Nat × Nat :=
  ((patternRules m.rules).length, (m.patternMatches.filter fun l => !l.isEmpty).length)

end Matcher

end RefRules
