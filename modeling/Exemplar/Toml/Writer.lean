import Exemplar.Decimal.Shortest
import Exemplar.Text.Digits
import Exemplar.Text.Lines
import Exemplar.Toml.Basic

/-!
# Writing TOML

The plain entries of a table come first, then the tables in it, each with its heading and a blank
line in front. A list of tables is written as one heading for each element. A string stands in
single quotes as it is, and in double quotes with escapes only if it holds a single quote or a
control character other than a tabulator.
-/

namespace Exemplar.Toml

/-- Whether a string can stand in single quotes as it is. -/
def isLiteral (s : List Char) : Bool := s.all (fun c => c != '\'' && !isControl c)

/-- A character inside double quotes, where `digits` are the two hexadecimal
digits of a code point. -/
def escapeChar (digits : Nat → List Char) (c : Char) : List Char :=
  if c == '\\' || c == '"' then ['\\', c]
  else if c == '\x08' then ['\\', 'b']
  else if c == '\x0c' then ['\\', 'f']
  else if c == '\n' then ['\\', 'n']
  else if c == '\r' then ['\\', 'r']
  else if c == '\t' then ['\\', 't']
  else if isControl c then '\\' :: 'u' :: '0' :: '0' :: digits c.toNat
  else [c]

/-- A string. -/
def stringChars (s : List Char) : List Char :=
  if isLiteral s then '\'' :: s ++ ['\'']
  else '"' :: s.flatMap (escapeChar (Text.upperHexDigits 2)) ++ ['"']

/-- A string. -/
def string (s : String) : String := String.ofList (stringChars s.toList)

/-- A name of a key. -/
def keyText (s : String) : String :=
  if !s.isEmpty && s.toList.all isBare then s else string s

/-- The names of a heading. -/
def pathText (path : List String) : String := ".".intercalate (path.map keyText)

/-- How floating-point numbers are written: a whole one with a fraction of zero. -/
def floatLayout : Decimal.FloatLayout :=
  ⟨fun d => if 0 ≤ d.exponent then d.positional ++ ".0" else d.positional, "nan", "inf", "-inf"⟩

mutual

/-- A value behind its key. -/
def valueText : Data → String
  | .null => "[]"
  | .bool b => if b then "true" else "false"
  | .int n => toString n
  | .float bits => Decimal.renderBits floatLayout Decimal.binary64 bits.toNat
  | .moment written _ => written
  | .text t => string t.toString
  | .list items => "[" ++ itemsText items ++ "]"
  | .record entries => "\x7b" ++ membersText entries ++ "\x7d"

/-- The items of a list in brackets. -/
def itemsText : List Data → String
  | [] => ""
  | [d] => valueText d
  | d :: rest => valueText d ++ ", " ++ itemsText rest

/-- The entries of a table in braces. -/
def membersText : List (String × Data) → String
  | [] => ""
  | [(name, d)] => keyText name ++ " = " ++ valueText d
  | (name, d) :: rest => keyText name ++ " = " ++ valueText d ++ ", " ++ membersText rest

end

/-- Whether data is a table. -/
def isTable : Data → Bool
  | .record _ => true
  | _ => false

/-- Whether data is a list of tables. -/
def isTables : Data → Bool
  | .list items => !items.isEmpty && items.all isTable
  | _ => false

/-- The lines of the plain entries of a table. -/
def plainLines (entries : List (String × Data)) : List String :=
  (entries.filter (fun e => !isTable e.2 && !isTables e.2)).map
    (fun e => keyText e.1 ++ " = " ++ valueText e.2)

/-- Blocks of lines with a blank line between each two. -/
def separated : List (List String) → List String
  | [] => []
  | [b] => b
  | b :: rest => b ++ "" :: separated rest

/-- Lines, and blocks behind a blank line if there are both. -/
def withBlocks (lines : List String) (blocks : List (List String)) : List String :=
  if lines.isEmpty || blocks.isEmpty then lines ++ separated blocks
  else lines ++ "" :: separated blocks

mutual

/-- The blocks of the tables among the entries of a table at the given path. -/
def blocks (path : List String) : List (String × Data) → List (List String)
  | [] => []
  | (name, d) :: rest => block (path ++ [name]) d ++ blocks path rest

/-- The block of a table or of a list of tables; none for anything else. -/
def block (path : List String) : Data → List (List String)
  | .record entries =>
    [("[" ++ pathText path ++ "]") :: withBlocks (plainLines entries) (blocks path entries)]
  | .list (d :: rest) =>
    if (d :: rest).all isTable then [separated (elements path (d :: rest))] else []
  | _ => []

/-- The blocks of the elements of a list of tables. -/
def elements (path : List String) : List Data → List (List String)
  | [] => []
  | .record entries :: rest =>
    (("[[" ++ pathText path ++ "]]") :: withBlocks (plainLines entries) (blocks path entries))
      :: elements path rest
  | _ :: rest => elements path rest

end

/-- Data as a TOML text: a table at the top. A list of tables there is written as one whose
headings have no names. -/
def write (d : Data) : String :=
  match d with
  | .record entries => Text.joinLines (withBlocks (plainLines entries) (blocks [] entries))
  | .list items =>
    if isTables d then Text.joinLines (separated (elements [] items)) else valueText d
  | d => valueText d

end Exemplar.Toml
