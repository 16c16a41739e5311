import Exemplar.Text.Digits

/-!
# Whole numbers in text

A whole number may have a sign, a mark for its base – `0x`, `0o`, `0b`, or a plain `0` for eight
– and single underscores between its digits. It has to fit into 64 bits.
-/

namespace Exemplar.Text

/-- What is wrong with the text of a number. -/
inductive NumeralError where
  /-- It is none. -/
  | malformed
  /-- It does not fit. -/
  | outOfRange
deriving DecidableEq

/-- The wording of what is wrong. -/
def NumeralError.text : NumeralError → String
  | .malformed => "invalid syntax"
  | .outOfRange => "value out of range"

/-- The base of an unsigned number, and its digits behind the mark. -/
def splitBase : List Char → Nat × List Char
  | '0' :: mark :: c :: rest =>
    if mark == 'b' || mark == 'B' then (2, c :: rest)
    else if mark == 'o' || mark == 'O' then (8, c :: rest)
    else if mark == 'x' || mark == 'X' then (16, c :: rest)
    else (8, mark :: c :: rest)
  | '0' :: rest => (8, rest)
  | s => (10, s)

/-- Whether every underscore stands behind a digit and in front of one. `inside` says whether the
character before was a digit, or a mark for the base. -/
def underscoresFit (inside : Bool) : List Char → Bool
  | [] => true
  | c :: rest =>
    if c == '_' then
      inside && (match rest with
        | [] => false
        | d :: _ => d != '_') && underscoresFit false rest
    else underscoresFit true rest

/-- The value of digits in a base, going from left to right and stopping at the first character
that is no digit or where the number gets too large. -/
def unsignedValue (base : Nat) : Nat → List Char → Except NumeralError Nat
  | n, [] => .ok n
  | n, c :: rest =>
    if c == '_' then unsignedValue base n rest
    else if digitValue c < base then
      let next := n * base + digitValue c
      if next < wordLimit then unsignedValue base next rest else .error .outOfRange
    else .error .malformed

/-- An unsigned number. -/
def unsigned (s : List Char) : Except NumeralError Nat := do
  if s.isEmpty then throw .malformed
  let (base, digits) := splitBase s
  let n ← unsignedValue base 0 digits
  if underscoresFit (digits.length < s.length) digits then return n else throw .malformed

/-- A whole number. -/
def wholeNumber (s : String) : Except NumeralError Int := do
  let (negative, body) := match s.toList with
    | '-' :: rest => (true, rest)
    | '+' :: rest => (false, rest)
    | cs => (false, cs)
  let n ← unsigned body
  if negative then
    if n ≤ signLimit then return -(n : Int) else throw .outOfRange
  else if n < signLimit then return n else throw .outOfRange

/-- A truth value, in one of the accepted spellings. -/
def truth? (s : String) : Option Bool :=
  if ["1", "t", "T", "TRUE", "true", "True"].contains s then some true
  else if ["0", "f", "F", "FALSE", "false", "False"].contains s then some false
  else none

end Exemplar.Text
