/-!
# Digits

Digits of bases up to sixteen, in either case, and the numbers they stand for.
-/

namespace Exemplar.Text

/-- The value of a digit in bases up to sixteen; sixteen for anything else. -/
def digitValue (c : Char) : Nat :=
  if c.isDigit then c.toNat - '0'.toNat
  else if 'a' ≤ c ∧ c ≤ 'f' then c.toNat - 'a'.toNat + 10
  else if 'A' ≤ c ∧ c ≤ 'F' then c.toNat - 'A'.toNat + 10
  else 16

/-- The number that digits of a base stand for. -/
def numeral (base : Nat) (ds : List Char) : Nat :=
  ds.foldl (fun n c => n * base + digitValue c) 0

/-- The number written in a base, if there are digits and all of them are of that base. -/
def numeral? (base : Nat) (ds : List Char) : Option Nat :=
  if !ds.isEmpty && ds.all (fun c => digitValue c < base) then some (numeral base ds) else none

/-- The digit of a number below sixteen. -/
def hexDigit (n : Nat) : Char := Nat.digitChar (n % 16)

/-- The `width` low hexadecimal digits of a number, in lower case. -/
def hexDigits : Nat → Nat → List Char
  | 0, _ => []
  | width + 1, n => hexDigit (n / 16 ^ width) :: hexDigits width n

/-- The `width` low hexadecimal digits of a number, in upper case. -/
def upperHexDigits (width n : Nat) : List Char := (hexDigits width n).map Char.toUpper

/-- The number of values of a word of 64 bits. -/
def wordLimit : Nat := 0x10000000000000000

/-- The number of values of a word of 64 bits that are not negative, if it has a sign. -/
def signLimit : Nat := 0x8000000000000000

end Exemplar.Text
