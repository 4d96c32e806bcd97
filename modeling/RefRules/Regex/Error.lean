/-!
# RefRules — faults of regular expressions

Why a text is not a regular expression, or one that nests too deep to be used.
-/

namespace RefRules

/-- Why a text is not a regular expression, or is one that nests too deep. -/
inductive PatternError where
  | unclosedGroup
  | unopenedGroup
  | badGroupName
  | duplicateGroupName
  | lookAround
  | badMode
  | duplicateMode
  | danglingNegation
  | repetitionMissing
  | badRepetition
  | badEscape
  | backreference
  | badHexadecimal
  | unknownProperty
  | badWordBoundary
  | unclosedClass
  | badClassEscape
  | badClassRange
  | invalidText
  | unicodeNeeded
  | tooDeep
  deriving DecidableEq

/-- What is wrong with the text. -/
def PatternError.detail : PatternError → String
  | .unclosedGroup => "unclosed group"
  | .unopenedGroup => "unopened group"
  | .badGroupName => "invalid capture group name"
  | .duplicateGroupName => "duplicate capture group name"
  | .lookAround => "look-around is not supported"
  | .badMode => "unrecognized flag"
  | .duplicateMode => "duplicate flag"
  | .danglingNegation => "dangling flag negation operator"
  | .repetitionMissing => "repetition operator missing expression"
  | .badRepetition => "invalid repetition count"
  | .badEscape => "unrecognized escape sequence"
  | .backreference => "backreferences are not supported"
  | .badHexadecimal => "invalid hexadecimal escape"
  | .unknownProperty => "Unicode property not found"
  | .badWordBoundary => "invalid special word boundary assertion"
  | .unclosedClass => "unclosed character class"
  | .badClassEscape => "invalid escape sequence found in character class"
  | .badClassRange => "invalid character class range"
  | .invalidText => "pattern can match invalid text"
  | .unicodeNeeded => "Unicode not allowed here"
  | .tooDeep => "exceeds the nesting limit"

def PatternError.message (e : PatternError) : String :=
  s!"regex parse error: {e.detail}"

end RefRules
