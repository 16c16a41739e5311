import Exemplar.Data
import Exemplar.Decimal.Shortest
import Exemplar.Yaml.Scalar

/-!
# Data as YAML

Entries and items stand on lines of their own. What belongs to an entry is indented to the next
multiple of four; what belongs to an item starts right behind its dash. Empty lists and records
are written with brackets.
-/

namespace Exemplar.Yaml

open Text (blanks joinLines)

/-- The indentation of what belongs to an entry indented by `n`. -/
def inner (n : Nat) : Nat := 4 * (n / 4 + 1)

/-- How floating-point numbers are written. -/
def floatLayout : Decimal.FloatLayout := ⟨Decimal.generalLayout.finite, ".nan", ".inf", "-.inf"⟩

/-- A line with the first `n` blanks replaced by a dash behind `n - 2` of them. -/
def dashed (n : Nat) : List String → List String
  | [] => []
  | first :: rest => (blanks n ++ "- " ++ String.ofList (first.toList.drop (n + 2))) :: rest

/-- A scalar behind `lead`: the rest of its line, and the lines below, indented by `n`. -/
def scalarLines (lead : String) (n : Nat) : Scalar → List String
  | .inline s => [lead ++ s]
  | .quoted s => [lead ++ singleQuoted (indentSeparated (blanks n).toList s)]
  | .block mark lines =>
    (lead ++ mark) :: lines.map (fun l =>
      if l.isEmpty then ""
      else blanks n ++ String.ofList (indentSeparated (blanks n).toList l))

mutual

/-- The lines of an entry with the given name, indented by `n`. -/
def entryLines (n : Nat) (name : String) : Data → List String
  | .null => [blanks n ++ keyText name ++ ": null"]
  | .bool b => [blanks n ++ keyText name ++ ": " ++ (if b then "true" else "false")]
  | .int k => [blanks n ++ keyText name ++ ": " ++ toString k]
  | .float bits =>
    [blanks n ++ keyText name ++ ": "
      ++ Decimal.renderBits floatLayout Decimal.binary64 bits.toNat]
  | .moment written zoned =>
    [blanks n ++ keyText name ++ ": " ++
      (if zoned then written else doubleQuoted written.toList)]
  | .text t => scalarLines (blanks n ++ keyText name ++ ": ") (inner n) (scalar t.toString)
  | .list [] => [blanks n ++ keyText name ++ ": []"]
  | .list (d :: rest) => (blanks n ++ keyText name ++ ":") :: listLines (inner n) (d :: rest)
  | .record [] => [blanks n ++ keyText name ++ ": \x7b\x7d"]
  | .record (e :: rest) => (blanks n ++ keyText name ++ ":") :: recordLines (inner n) (e :: rest)

/-- The lines of an item, whose dash is indented by `n`. -/
def itemLines (n : Nat) : Data → List String
  | .null => [blanks n ++ "- null"]
  | .bool b => [blanks n ++ "- " ++ (if b then "true" else "false")]
  | .int k => [blanks n ++ "- " ++ toString k]
  | .float bits =>
    [blanks n ++ "- " ++ Decimal.renderBits floatLayout Decimal.binary64 bits.toNat]
  | .moment written zoned =>
    [blanks n ++ "- " ++ (if zoned then written else doubleQuoted written.toList)]
  | .text t => scalarLines (blanks n ++ "- ") (n + 2) (scalar t.toString)
  | .list [] => [blanks n ++ "- []"]
  | .list (d :: rest) => dashed n (listLines (n + 2) (d :: rest))
  | .record [] => [blanks n ++ "- \x7b\x7d"]
  | .record (e :: rest) => dashed n (recordLines (n + 2) (e :: rest))

/-- The lines of the items of a list. -/
def listLines (n : Nat) : List Data → List String
  | [] => []
  | d :: rest => itemLines n d ++ listLines n rest

/-- The lines of the entries of a record. -/
def recordLines (n : Nat) : List (String × Data) → List String
  | [] => []
  | (name, d) :: rest => entryLines n name d ++ recordLines n rest

end

/-- Data as a YAML text; a list or a record at the top. -/
def write : Data → String
  | .list [] => "[]\n"
  | .list (d :: rest) => joinLines (listLines 0 (d :: rest))
  | .record [] => "\x7b\x7d\n"
  | .record (e :: rest) => joinLines (recordLines 0 (e :: rest))
  | d => joinLines ((itemLines 0 d).map (fun l => String.ofList (l.toList.drop 2)))

end Exemplar.Yaml
