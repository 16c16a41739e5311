import Exemplar.Log.Entry
import Exemplar.Text.Basic

/-!
# Log lines for a terminal

An entry is one line: the time, the level from warnings on, the component by a short name, the
message, and the values with a blank between each two. Units, files and outputs are shown bare,
a duration has its unit behind it, and everything else is shown with its name. Colours tell the
parts apart; nothing is coloured that is empty.
-/

namespace Exemplar.Log.Console

/-- The escape sequence that takes a colour back. -/
def reset : String := "\x1b[0m"

/-- The escape sequence for a colour of the palette in the foreground. -/
def ink (code : String) : String := "\x1b[38;5;" ++ code ++ "m"

/-- The escape sequence for a colour of the palette in the background. -/
def ground (code : String) : String := "\x1b[48;5;" ++ code ++ "m"

/-- The escape sequence for heavy letters. -/
def bold : String := "\x1b[1m"

/-- A text in a colour, if there are colours and there is a text. -/
def paint (colour : Bool) (sequence s : String) : String :=
  if colour && !s.isEmpty then sequence ++ s ++ reset else s

/-- The colour of a component, by the sum of the code points of its name. -/
def componentInk (name : String) : String :=
  match name.toList.foldl (fun n c => n + c.toNat) 0 % 3 with
  | 0 => ink "108"
  | 1 => ink "65"
  | _ => ink "208"

/-- The parts of a name between its dots. -/
def dotted (name : String) : List String := name.splitOn "."

/-- The short name of a component: of the first of several parts only its first byte is kept,
read as a code point. -/
def shortName (name : String) : String :=
  match dotted name with
  | first :: second :: rest =>
    match (Text.ofString first).encode with
    | b :: _ => String.ofList [Char.ofNat b.toNat] ++ "." ++ ".".intercalate (second :: rest)
    | [] => name
  | _ => name

/-- The level as it is shown; the lower ones are not. -/
def levelText (colour : Bool) : Level → Option String
  | .debug | .info => none
  | .warn => some (paint colour (bold ++ ground "58" ++ ink "179") Level.warn.capital)
  | .error => some (paint colour (bold ++ ground "52" ++ ink "167") Level.error.capital)

/-- A value as it is shown. A natural number is shown as the signed number with the same bits. -/
def valueText : Value → String
  | .text s => s
  | .int n | .smallInt n => toString n
  | .natural n => toString n.toInt64.toInt
  | .bool b => if b then "true" else "false"
  | .float bits => Decimal.renderBits Decimal.generalLayout Decimal.binary64 bits.toNat
  | .smallFloat bits => Decimal.renderBits Decimal.generalLayout Decimal.binary32 bits.toNat
  | .texts l => "[" ++ " ".intercalate l ++ "]"
  | .failure m => m
  | .duration ms => toString ms ++ "ms"
  | .nothing | .absent => ""

/-- A field as it is shown. -/
def fieldText (colour : Bool) (f : Field) : String :=
  let value := valueText f.value
  if f.key == "unit" || f.key == "file" || f.key == "output" then paint colour (ink "109") value
  else if f.key == "duration_ms" then paint colour (ink "108") value ++ "ms"
  else if f.key == "error" then paint colour (ink "167") ("error=" ++ value)
  else f.key ++ "=" ++ paint colour (ink "108") value

/-- Whether a value can go with every entry of a logger on a terminal. -/
def carries : Value → Bool
  | .text _ | .int _ | .bool _ | .failure _ => true
  | _ => false

/-- The line of an entry said at the given time of day. -/
def line (colour : Bool) (time : String) (context : List Field) (e : Entry) : String :=
  let carried := context.filter (fun f => carries f.value)
  let values := ((carried ++ e.fields).filter Field.isPresent).map (fieldText colour)
  let shown := " ".intercalate values
  let parts := [paint colour (ink "107") time]
    ++ (levelText colour e.level).toList
    ++ (if e.component.isEmpty then []
        else [paint colour (componentInk e.component) (shortName e.component)])
    ++ [paint colour (ink "223") e.message]
    ++ (if shown.isEmpty then [] else [shown])
  "  ".intercalate parts ++ "\n"

end Exemplar.Log.Console
