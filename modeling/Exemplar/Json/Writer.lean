import Exemplar.Data
import Exemplar.Decimal.Shortest
import Exemplar.Text.Quoted

/-!
# Data as JSON

One entry or item to a line, two blanks for each level. Besides what JSON itself demands, the
characters with a meaning in markup and the two line separators outside ASCII are escaped, so
that the text can be put into a page or a script as it is.
-/

namespace Exemplar.Json

/-- A character by its code point. -/
def codePoint (c : Char) : List Char := '\\' :: 'u' :: Text.hexDigits 4 c.toNat

/-- A character inside a string. -/
def escapeChar (c : Char) : List Char :=
  if c == '"' || c == '\\' then ['\\', c]
  else if c == '\n' then ['\\', 'n']
  else if c == '\r' then ['\\', 'r']
  else if c == '\t' then ['\\', 't']
  else if c.toNat = 8 then ['\\', 'b']
  else if c.toNat = 12 then ['\\', 'f']
  else if c.toNat < 0x20 || c == '<' || c == '>' || c == '&' || c.toNat = 0x2028
      || c.toNat = 0x2029 then codePoint c
  else [c]

/-- A string. -/
def string (s : String) : String := String.ofList ('"' :: s.toList.flatMap escapeChar ++ ['"'])

/-- How floating-point numbers are written. -/
def floatLayout : Decimal.FloatLayout := ⟨Decimal.render ⟨-6, 21, 1⟩, "null", "null", "null"⟩

/-- A new line with `depth` levels of indentation. -/
def newline (depth : Nat) : String := "\n" ++ String.ofList (List.replicate (2 * depth) ' ')

mutual

/-- A value whose first line stands at the given depth. -/
def value (depth : Nat) : Data → String
  | .null => "null"
  | .bool b => if b then "true" else "false"
  | .int n => toString n
  | .float bits => Decimal.renderBits floatLayout Decimal.binary64 bits.toNat
  | .moment written _ => string written
  | .text t => string t.toString
  | .list [] => "[]"
  | .list (d :: rest) => "[" ++ items (depth + 1) (d :: rest) ++ newline depth ++ "]"
  | .record [] => "\x7b\x7d"
  | .record (e :: rest) => "\x7b" ++ members (depth + 1) (e :: rest) ++ newline depth ++ "\x7d"

/-- The items of a list, each on a line of its own. -/
def items (depth : Nat) : List Data → String
  | [] => ""
  | [d] => newline depth ++ value depth d
  | d :: rest => newline depth ++ value depth d ++ "," ++ items depth rest

/-- The entries of a record, each on a line of its own. -/
def members (depth : Nat) : List (String × Data) → String
  | [] => ""
  | [(name, d)] => newline depth ++ string name ++ ": " ++ value depth d
  | (name, d) :: rest =>
    newline depth ++ string name ++ ": " ++ value depth d ++ "," ++ members depth rest

end

/-- Data as a JSON text. -/
def write (d : Data) : String := value 0 d ++ "\n"

end Exemplar.Json
