import Exemplar.Data

/-!
# TOML documents

A document is a sequence of statements: a heading that opens a table, a heading that opens the
next element of a list of tables, or an entry. What they mean together is another matter; here
they are as they were written, with the names of a dotted key apart.
-/

namespace Exemplar.Toml

/-- A value as it was written. -/
inductive Value where
  /-- A string, a number, a truth value or a moment. -/
  | scalar (d : Data)
  /-- A list in brackets. -/
  | array (items : List Value)
  /-- A table in braces, with the names of each key. -/
  | inlineTable (entries : List (List String × Value))

instance : Inhabited Value := ⟨.scalar .null⟩

/-- A statement of a document. -/
inductive Statement where
  /-- `[a.b]` -/
  | table (path : List String)
  /-- `[[a.b]]` -/
  | element (path : List String)
  /-- `a.b = value` -/
  | entry (path : List String) (value : Value)

/-- The variants of the notation. -/
structure Dialect where
  /-- Whether a table in braces may have line breaks in it and a comma at its end. -/
  looseTables : Bool
  /-- Whether there are escapes for the escape character and for two hexadecimal digits. -/
  moreEscapes : Bool
  /-- Whether a time of day may come without seconds. -/
  shortTimes : Bool
  /-- Whether a mark for the byte order at the start is skipped. -/
  skipsMark : Bool

/-- The notation in its first settled version. -/
def strict : Dialect := ⟨false, false, false, false⟩

/-- The notation with the liberties of its second version. -/
def lenient : Dialect := ⟨true, true, true, true⟩

/-- Whether a character may stand in a key without quotes. -/
def isBare (c : Char) : Bool := c.isAlphanum || c == '_' || c == '-'

/-- Whether a character is a control character that may not show as it is. A tabulator may. -/
def isControl (c : Char) : Bool := (c.toNat < 0x20 && c != '\t') || c.toNat = 0x7F

end Exemplar.Toml
