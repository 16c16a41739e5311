/-!
# Parts and lines

A text between marks, and a text made of lines.
-/

namespace Exemplar.Text

/-- The parts of a text between occurrences of a character. There is always at least one,
possibly empty. -/
def splitAt (mark : Char) : List Char → List (List Char)
  | [] => [[]]
  | c :: rest =>
    if c == mark then [] :: splitAt mark rest
    else match splitAt mark rest with
      | [] => [[c]]
      | p :: more => (c :: p) :: more

/-- The parts of a string between occurrences of a character. -/
def splitString (mark : Char) (s : String) : List String :=
  (splitAt mark s.toList).map String.ofList

/-- Lines, each with a break behind it. -/
def joinLines (lines : List String) : String := String.join (lines.map (· ++ "\n"))

/-- Blanks. -/
def blanks (n : Nat) : String := String.ofList (List.replicate n ' ')

end Exemplar.Text
