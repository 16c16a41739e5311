import Exemplar.Text.Lines

/-!
# Notices

A notice to the user has a label in front of it. Its further lines are set in by the width of the
label, and it ends with exactly one line break however many its text ends with.
-/

namespace Exemplar

/-- The label of a notice. -/
inductive Label where
  | info
  | success
  | warning
  | error
deriving DecidableEq

namespace Label

/-- The text of a label, with the space around it. -/
def tag : Label → String
  | .info => " INFO "
  | .success => " SUCCESS "
  | .warning => " WARNING "
  | .error => "  ERROR  "

/-- The lines of a text, without empty ones at its end. There is at least one. -/
def trimmedLines (text : String) : List String :=
  let kept := (text.toList.reverse.dropWhile (· == '\n')).reverse
  Text.splitString '\n' (String.ofList kept)

/-- A notice under a label. -/
def notice (l : Label) (text : String) : String :=
  let indent := Text.blanks (l.tag.length + 1)
  match trimmedLines text with
  | [] => ""
  | first :: rest => Text.joinLines ((l.tag ++ " " ++ first) :: rest.map (indent ++ ·))

end Label

end Exemplar
