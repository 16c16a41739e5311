import Exemplar.Log.Entry
import Exemplar.Text.Quoted

/-!
# Log lines for machines

An entry is one JSON object on a line: its level, its time, its component if it has a name, its
message, and its fields in their order, a repeated name included. Only what has to be escaped is
escaped. Numbers never have an exponent, and a duration is a number of seconds.
-/

namespace Exemplar.Log.Structured

/-- A character inside a JSON string. -/
def escapeChar (c : Char) : List Char :=
  if c == '"' || c == '\\' then ['\\', c]
  else if c == '\n' then ['\\', 'n']
  else if c == '\r' then ['\\', 'r']
  else if c == '\t' then ['\\', 't']
  else if c.toNat < 0x20 then '\\' :: 'u' :: Text.hexDigits 4 c.toNat
  else [c]

/-- A JSON string. -/
def string (s : String) : String := String.ofList ('"' :: s.toList.flatMap escapeChar ++ ['"'])

/-- Texts with commas between them, in brackets. -/
def array (items : List String) : String := "[" ++ ",".intercalate items ++ "]"

/-- A floating-point number: what is no finite number is a string. -/
def floatLayout : Decimal.FloatLayout :=
  ⟨Decimal.positional, "\"NaN\"", "\"+Inf\"", "\"-Inf\""⟩

/-- A value. -/
def valueText : Value → String
  | .text s | .failure s => string s
  | .int n | .smallInt n => toString n
  | .natural n => toString n.toNat
  | .bool b => if b then "true" else "false"
  | .float bits => Decimal.renderBits floatLayout Decimal.binary64 bits.toNat
  | .smallFloat bits => Decimal.renderBits floatLayout Decimal.binary32 bits.toNat
  | .texts l => array (l.map string)
  | .duration ms => (Decimal.ofThousandths ms).positional
  | .nothing | .absent => "null"

/-- A field of an object. -/
def member (key value : String) : String := string key ++ ":" ++ value

/-- The line of an entry said at the given time. -/
def line (time : String) (context : List Field) (e : Entry) : String :=
  let fields := (context ++ e.fields).filter Field.isPresent
  let members := [member "level" (string e.level.name), member "ts" time]
    ++ (if e.component.isEmpty then [] else [member "logger" (string e.component)])
    ++ [member "msg" (string e.message)]
    ++ fields.map (fun f => member f.key (valueText f.value))
  "\x7b" ++ ",".intercalate members ++ "\x7d\n"

end Exemplar.Log.Structured
