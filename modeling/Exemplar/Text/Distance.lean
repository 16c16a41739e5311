/-!
# Edit distance

The distance of two lists is the least number of elements to insert, to delete or to replace on
the way from one to the other. It is computed row by row: the row of a list holds its distances
to all initial segments of the other one.
-/

namespace Exemplar.Text

variable {α : Type} [BEq α]

/-- What follows in the next row behind the value `left`, for the remaining elements of the other
list and the rest of the row above. -/
def rowAfter (a : α) (left : Nat) : List α → List Nat → List Nat
  | b :: bs, diagonal :: above :: row =>
    let here := if a == b then diagonal else min diagonal (min left above) + 1
    here :: rowAfter a here bs (above :: row)
  | _, _ => []

/-- The row of a list with one more element at its end. -/
def nextRow (t : List α) (row : List Nat) (a : α) : List Nat :=
  let first := row.head?.getD 0 + 1
  first :: rowAfter a first t row

/-- The number of edits between two lists. -/
def distance (s t : List α) : Nat :=
  (s.foldl (nextRow t) (List.range (t.length + 1))).getLast?.getD 0

end Exemplar.Text
