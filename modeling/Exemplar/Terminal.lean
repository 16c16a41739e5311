/-!
# Colours on a terminal

A coloured piece of text stands between an escape sequence that sets the colour and one that
takes it back. A piece of several lines is coloured line by line, so that every line can be
shown alone.
-/

namespace Exemplar.Terminal

/-- The character that starts an escape sequence. -/
def escape : String := "\x1b"

/-- The colours in use, by their number. -/
inductive Colour where
  | red
  | green
  | yellow
  | lightCyan
deriving DecidableEq

/-- The number of a colour. -/
def Colour.code : Colour → String
  | .red => "31"
  | .green => "32"
  | .yellow => "33"
  | .lightCyan => "96"

/-- One line in a colour. -/
def paintLine (c : Colour) (line : String) : String :=
  escape ++ "[" ++ c.code ++ "m" ++ line ++ escape ++ "[0m"

/-- A text in a colour, line by line. -/
def paint (c : Colour) (text : String) : String :=
  "\n".intercalate ((text.splitOn "\n").map (paintLine c))

end Exemplar.Terminal
