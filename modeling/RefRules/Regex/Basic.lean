import RefRules.Text.Property

/-!
# RefRules — regular expressions

A `Regex` is a regular expression over characters with assertions about the place in the text.
Main definitions:

* `Look.holds` — what an assertion says about a position of a text;
* `Regex.Matches` — the spans of a text that an expression matches;
* `Regex.reach` — the ends of the spans that begin in a given set of positions;
* `Regex.isMatch` — whether an expression matches a span of a text.
-/

namespace RefRules

/-- A set of characters. -/
abbrev CharClass := Char → Bool

/-! ## Assertions -/

/-- An assertion about the characters beside a position. -/
inductive Look where
  | textStart
  | textEnd
  | lineStart (crlf : Bool)
  | lineEnd (crlf : Bool)
  | wordBoundary (word : CharClass)
  | notWordBoundary (word : CharClass)
  | wordStart (word : CharClass)
  | wordEnd (word : CharClass)
  | noWordBefore (word : CharClass)
  | noWordAfter (word : CharClass)

namespace Look

/-- The character before position `i`. -/
def before? (text : Array Char) (i : Nat) : Option Char :=
  if i = 0 then none else text[i - 1]?

/-- The assertion holds at position `i` of `text`. -/
def holds (look : Look) (text : Array Char) (i : Nat) : Bool :=
  let before := before? text i
  let after := text[i]?
  match look with
  | textStart => before.isNone
  | textEnd => after.isNone
  | lineStart false => before.isNone || before == some '\n'
  | lineEnd false => after.isNone || after == some '\n'
  | lineStart true =>
    before.isNone || before == some '\n' || (before == some '\r' && after != some '\n')
  | lineEnd true =>
    after.isNone || after == some '\r' || (after == some '\n' && before != some '\r')
  | wordBoundary word => before.any word != after.any word
  | notWordBoundary word => before.any word == after.any word
  | wordStart word => !before.any word && after.any word
  | wordEnd word => before.any word && !after.any word
  | noWordBefore word => !before.any word
  | noWordAfter word => !after.any word

end Look

/-! ## Expressions -/

/-- A regular expression. -/
inductive Regex where
  | empty
  | one (cls : CharClass)
  | look (assertion : Look)
  | seq (first second : Regex)
  | alt (left right : Regex)
  | repeated (body : Regex) (min : Nat) (max : Option Nat)

namespace Regex

/-- `n` steps of a relation. -/
def Steps (step : Nat → Nat → Prop) : Nat → Nat → Nat → Prop
  | 0, i, j => i = j
  | n + 1, i, j => ∃ k, step i k ∧ Steps step n k j

/-- The expression matches `text` from position `i` to position `j`. -/
def Matches (text : Array Char) : Regex → Nat → Nat → Prop
  | empty, i, j => i = j
  | one cls, i, j => j = i + 1 ∧ ∃ c, text[i]? = some c ∧ cls c = true
  | look assertion, i, j => i = j ∧ assertion.holds text i = true
  | seq r s, i, j => ∃ k, Matches text r i k ∧ Matches text s k j
  | alt r s, i, j => Matches text r i j ∨ Matches text s i j
  | repeated r min max, i, j =>
    ∃ n, min ≤ n ∧ (∀ m, max = some m → n ≤ m) ∧ Steps (Matches text r) n i j

/-! ## Search -/

/-- The members of both lists, those of the first list once. -/
def merge (a b : List Nat) : List Nat :=
  a ++ b.filter fun i => !a.contains i

/-- `f` applied `n` times; a fixed point ends it early. -/
def iterate (f : List Nat → List Nat) : Nat → List Nat → List Nat
  | 0, s => s
  | n + 1, s => if f s = s then s else iterate f n (f s)

/-- Everything reached from `s` by at most `n` applications of `f`. -/
def grow (f : List Nat → List Nat) : Nat → List Nat → List Nat
  | 0, s => s
  | n + 1, s =>
    let next := merge s (f s)
    if next.length = s.length then s else grow f n next

/-- The ends of the matches that begin at a position of `s`. -/
def reach (text : Array Char) : Regex → List Nat → List Nat
  | empty, s => s
  | one cls, s => (s.filter fun i => text[i]?.any cls).map (· + 1)
  | look assertion, s => s.filter (assertion.holds text)
  | seq r q, s => reach text q (reach text r s)
  | alt r q, s => merge (reach text r s) (reach text q s)
  | repeated r min max, s =>
    let base := iterate (reach text r) min s
    match max with
    | none => grow (reach text r) (text.size + 1) base
    | some m => if m < min then [] else grow (reach text r) (m - min) base

/-- The expression matches a span of `text`, wherever it begins. -/
def isMatch (r : Regex) (text : String) : Bool :=
  let chars := text.toList.toArray
  !(reach chars r (List.range (chars.size + 1))).isEmpty

end Regex

end RefRules
