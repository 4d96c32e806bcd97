import RefRules.Numeral

/-!
# RefRules — coloured texts

Texts for a terminal. A styled text stands between codes that begin and end its style; blanks that
fill it up stand between them too.
-/

namespace RefRules.CommandLine

/-- How a text looks: codes for its weight and its colour. -/
structure Style where
  codes : List Nat

namespace Style

def red : Style := ⟨[31]⟩
def green : Style := ⟨[32]⟩
def yellow : Style := ⟨[33]⟩
def blue : Style := ⟨[34]⟩
def magenta : Style := ⟨[35]⟩
def cyan : Style := ⟨[36]⟩
def dimmed : Style := ⟨[2]⟩

/-- The same style, bold. -/
def bold (s : Style) : Style :=
  ⟨1 :: s.codes⟩

/-- What ends every style. -/
def reset : String := "\x1b[0m"

/-- What begins the style. -/
def start (s : Style) : String :=
  "\x1b[" ++ ";".intercalate (s.codes.map toString) ++ "m"

/-- The text in the style, filled up with blanks to a width. An end of style inside of the text
begins the style again. -/
def paintTo (s : Style) (width : Nat) (text : String) : String :=
  s.start ++ Numeral.padRight width (text.replace reset (reset ++ s.start)) ++ reset

end Style

/-- The text in a style where there are colours, filled up with blanks to a width. -/
def paintTo (color : Bool) (style : Style) (width : Nat) (text : String) : String :=
  if color then style.paintTo width text else Numeral.padRight width text

/-- The text in a style where there are colours. -/
def paint (color : Bool) (style : Style) (text : String) : String :=
  paintTo color style 0 text

end RefRules.CommandLine
