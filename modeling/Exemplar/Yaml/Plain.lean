import Exemplar.Calendar
import Exemplar.Text.Digits
import Exemplar.Text.Lines

/-!
# Strings that would read as something else

A string written without quotes is read back as a string only if it does not look like a value
of another type: a truth value or a null in any of the accepted spellings, a number, or a point
in time. The tests here accept a little more than today's readers do, as older ones took more
words for truth values and numbers in base sixty.
-/

namespace Exemplar.Yaml

open Text (digitValue numeral? splitAt)

/-- The words that stand for a truth value, a null or a special number. -/
def reservedWords : List String :=
  ["", "~", "null", "Null", "NULL", "true", "True", "TRUE", "false", "False", "FALSE",
   ".nan", ".NaN", ".NAN", ".inf", ".Inf", ".INF", "+.inf", "+.Inf", "+.INF",
   "-.inf", "-.Inf", "-.INF"]

/-- The words that older readers took for truth values. -/
def formerBooleans : List String :=
  ["y", "Y", "yes", "Yes", "YES", "on", "On", "ON", "n", "N", "no", "No",
    "NO", "off", "Off", "OFF"]

/-- The characters without a sign in front of them. -/
def unsigned : List Char → List Char
  | [] => []
  | c :: rest => if c == '+' || c == '-' then rest else c :: rest

/-- The digits at the start and what follows them. -/
def digitsOf (s : List Char) : List Char × List Char := s.span Char.isDigit

/-- Whether the text is an exponent, or empty. -/
def isExponentOrEnd : List Char → Bool
  | [] => true
  | c :: rest =>
    (c == 'e' || c == 'E') && !(unsigned rest).isEmpty && (unsigned rest).all Char.isDigit

/-- Whether the text without a sign is a decimal number. -/
def isDecimal (s : List Char) : Bool :=
  match digitsOf s with
  | ([], '.' :: rest) =>
    let (fraction, more) := digitsOf rest
    !fraction.isEmpty && isExponentOrEnd more
  | ([], _) => false
  | (_, '.' :: rest) => isExponentOrEnd (digitsOf rest).2
  | (_, rest) => isExponentOrEnd rest

/-- The number of a text with a mark for its base. -/
def marked? : List Char → Option Nat
  | '0' :: mark :: rest =>
    if mark == 'x' || mark == 'X' then numeral? 16 rest
    else if mark == 'b' || mark == 'B' then numeral? 2 rest
    else if mark == 'o' || mark == 'O' then numeral? 8 rest
    else none
  | _ => none

/-- Whether the text reads as a whole number with a mark for its base. -/
def isMarkedNumber (s : List Char) : Bool :=
  match marked? (unsigned s) with
  | some n => if s.head? == some '-' then n ≤ Text.signLimit else n < Text.wordLimit
  | none => false

/-- One part of a number in base sixty, behind its colon. -/
def isSixtieth (part : List Char) : Bool :=
  match part with
  | [c] => c.isDigit
  | [c, d] => ('0' ≤ c && c ≤ '5') && d.isDigit
  | _ => false

/-- Whether the text is a number in base sixty. -/
def isBaseSixty (s : List Char) : Bool :=
  match splitAt ':' (unsigned s) with
  | lead :: part :: more =>
    let parts := part :: more
    let last := parts.getLast?.getD []
    let whole := last.takeWhile (· != '.')
    let fraction := (last.dropWhile (· != '.')).drop 1
    (lead.head?.map Char.isDigit).getD false && lead.all (fun c => c.isDigit || c == '_')
      && (parts.dropLast ++ [whole]).all isSixtieth
      && fraction.all (fun c => c.isDigit || c == '_')
  | _ => false

/-! ## Points in time -/

/-- One or two digits at the start: their value and what follows. -/
def shortNumber? : List Char → Option (Nat × List Char)
  | c :: d :: rest =>
    if c.isDigit then
      if d.isDigit then some (digitValue c * 10 + digitValue d, rest)
      else some (digitValue c, d :: rest)
    else none
  | [c] => if c.isDigit then some (digitValue c, []) else none
  | [] => none

/-- The rest of a text that starts with a character. -/
def after? (c : Char) : List Char → Option (List Char)
  | d :: rest => if d == c then some rest else none
  | [] => none

/-- What follows a date at the start of a text. -/
def date? (s : List Char) : Option (List Char) := do
  let (year, rest) := digitsOf s
  if year.length != 4 then none
  let (month, rest) ← shortNumber? (← after? '-' rest)
  let (day, rest) ← shortNumber? (← after? '-' rest)
  let y := (numeral? 10 year).getD 0
  if Calendar.isDate y month day then some rest else none

/-- What follows a time of day at the start of a text. -/
def timeOfDay? (s : List Char) : Option (List Char) := do
  let (hour, rest) ← shortNumber? s
  let (minute, rest) ← shortNumber? (← after? ':' rest)
  let (second, rest) ← shortNumber? (← after? ':' rest)
  if hour < 24 && minute < 60 && second < 60 then
    match rest with
    | mark :: d :: more =>
      if (mark == '.' || mark == ',') && d.isDigit then some (more.dropWhile Char.isDigit)
      else some rest
    | _ => some rest
  else none

/-- Whether the text is a distance from universal time. -/
def isZone : List Char → Bool
  | ['Z'] => true
  | [sign, a, b, ':', c, d] =>
    (sign == '+' || sign == '-') && [a, b, c, d].all Char.isDigit
      && digitValue a * 10 + digitValue b ≤ 24 && digitValue c * 10 + digitValue d < 60
  | _ => false

/-- Whether the text is a date, or a date with a time of day. -/
def isMoment (s : List Char) : Bool :=
  match date? s with
  | none => false
  | some [] => true
  | some (mark :: rest) =>
    match timeOfDay? rest with
    | none => false
    | some zone =>
      if mark == 'T' || mark == 't' then isZone zone
      else mark == ' ' && zone.isEmpty

/-- Whether a string without quotes would be read as something else. -/
def readsOtherwise (s : String) : Bool :=
  let cs := s.toList
  let bare := cs.filter (· != '_')
  reservedWords.contains s || formerBooleans.contains s
    || match cs with
      | [] => true
      | c :: _ =>
        if c == '.' then isDecimal cs
        else if c == '+' || c == '-' || c.isDigit then
          isMoment cs || isDecimal (unsigned bare) || isMarkedNumber bare || isBaseSixty cs
        else false

end Exemplar.Yaml
