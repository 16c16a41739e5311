import Exemplar.Text.Basic

/-!
# Plain data

Trees of scalars, lists and records: what a dump of declarations or a configuration looks like
before it is written in some format, and after it was read. A record is a list of entries with
distinct names. Where the names come from a fixed layout the entries stand in its order, and
where they are themselves data a writer sorts them (`Data.sorted`).
-/

namespace Exemplar

/-- A tree of plain data. -/
inductive Data where
  /-- Nothing. -/
  | null
  /-- A truth value. -/
  | bool (b : Bool)
  /-- A whole number. -/
  | int (n : Int)
  /-- A floating-point number of 64 bits, by its bits. -/
  | float (bits : UInt64)
  /-- A date, a time of day or both, as it is written; `zoned` if it is a point in time. -/
  | moment (written : String) (zoned : Bool)
  /-- A text. -/
  | text (t : Text)
  /-- A list. -/
  | list (items : List Data)
  /-- A record with named entries. -/
  | record (entries : List (String × Data))

namespace Data

instance : Inhabited Data := ⟨.null⟩

/-- A string as data. -/
def string (s : String) : Data := .text (Text.ofString s)

/-- A list of texts as data. -/
def texts (l : List Text) : Data := .list (l.map .text)

/-- A list of strings as data. -/
def strings (l : List String) : Data := .list (l.map string)

/-- The order of names by their bytes. -/
def nameLe (a b : String) : Bool := Text.le (Text.ofString a) (Text.ofString b)

mutual

/-- The same data with the entries of every record in the order of their names. -/
def sorted : Data → Data
  | .list items => .list (sortedList items)
  | .record entries => .record ((sortedEntries entries).mergeSort (fun a b => nameLe a.1 b.1))
  | d => d

/-- `sorted` for each of a list. -/
def sortedList : List Data → List Data
  | [] => []
  | d :: rest => d.sorted :: sortedList rest

/-- `sorted` for each value of a record. -/
def sortedEntries : List (String × Data) → List (String × Data)
  | [] => []
  | (name, d) :: rest => (name, d.sorted) :: sortedEntries rest

end

end Data

end Exemplar
