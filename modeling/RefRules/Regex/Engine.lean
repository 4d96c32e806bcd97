import RefRules.Regex.Parser

/-!
# RefRules — engines of regular expressions

What compiles patterns is a part that can be exchanged: an engine says for each text which expression it
is compiled to, or what is wrong with it. Main definitions:

* `RegexEngine` — what patterns are compiled to;
* `RegexEngine.standard` — the reader of this library as an engine;
* `Regex.anchored` — a pattern in a group of its own between the anchors of a text.
-/

namespace RefRules

/-- What patterns are compiled to; a fault is its message. -/
structure RegexEngine where
  compile : String → Except String Regex

namespace RegexEngine

/-- The text is a pattern. -/
def Accepts (engine : RegexEngine) (pattern : String) : Prop :=
  ∃ regex, engine.compile pattern = .ok regex

/-- The reader of this library. It sets no limit to the size of an expression, and of the properties of
characters it knows general categories, scripts and those of `Text.propertyNamed?`. -/
def standard : RegexEngine where
  compile pattern := (Regex.parse pattern.toList).mapError PatternError.message

end RegexEngine

namespace Regex

/-- The pattern in a group that captures nothing. -/
def grouped (pattern : String) : String :=
  "(?:" ++ pattern ++ ")"

/-- The pattern in a group of its own between the anchors of a text. -/
def anchored (pattern : String) : String :=
  "^" ++ grouped pattern ++ "$"

end Regex

end RefRules
