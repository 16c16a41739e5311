/-!
# Decimal numbers and their layouts

A decimal number is a whole number of digits times a power of ten. The same number can be laid
out positionally or in scientific notation; which of the two a format uses depends on how far
the leading digit is from the point, and a `Layout` says so.
-/

namespace Exemplar

/-- The number `± digits · 10 ^ exponent`. -/
structure Decimal where
  /-- Whether it has a minus sign. -/
  negative : Bool
  /-- The digits, read as a whole number. -/
  digits : Nat
  /-- The power of ten they are multiplied with. -/
  exponent : Int
deriving DecidableEq

namespace Decimal

/-- Moves zeros at the end of the digits into the exponent, at most `fuel` of them. -/
def trimmed : Nat → Nat → Int → Nat × Int
  | 0, digits, exponent => (digits, exponent)
  | fuel + 1, digits, exponent =>
    if digits ≠ 0 ∧ digits % 10 = 0 then trimmed fuel (digits / 10) (exponent + 1)
    else (digits, exponent)

/-- The same number without zeros at the end of its digits; zero has exponent zero. -/
def normal (d : Decimal) : Decimal :=
  if d.digits = 0 then ⟨d.negative, 0, 0⟩
  else
    let (digits, exponent) := trimmed d.digits d.digits d.exponent
    ⟨d.negative, digits, exponent⟩

/-- The sign in front of a number. -/
def sign (d : Decimal) : String := if d.negative then "-" else ""

/-- The digits as characters. -/
def digitChars (d : Decimal) : List Char := Nat.toDigits 10 d.digits

/-- The power of ten of the leading digit. -/
def magnitude (d : Decimal) : Int := d.exponent + (d.digitChars.length : Int) - 1

/-- Zeros. -/
def zeros (n : Nat) : List Char := List.replicate n '0'

/-- The positional notation without a sign. -/
def positionalChars (d : Decimal) : List Char :=
  let ds := d.digitChars
  match d.exponent with
  | .ofNat n => ds ++ (if d.digits = 0 then [] else zeros n)
  | .negSucc n =>
    let places := n + 1
    if places < ds.length then
      ds.take (ds.length - places) ++ '.' :: ds.drop (ds.length - places)
    else '0' :: '.' :: zeros (places - ds.length) ++ ds

/-- The positional notation. -/
def positional (d : Decimal) : String := d.sign ++ String.ofList d.positionalChars

/-- An exponent with its sign and at least `width` digits. -/
def exponentText (width : Nat) (e : Int) : String :=
  let ds := Nat.toDigits 10 e.natAbs
  (if e < 0 then "-" else "+") ++ String.ofList (zeros (width - ds.length) ++ ds)

/-- The scientific notation, with at least `width` digits in the exponent. -/
def scientific (width : Nat) (d : Decimal) : String :=
  let mantissa := match d.digitChars with
    | [] => []
    | [c] => [c]
    | c :: rest => c :: '.' :: rest
  d.sign ++ String.ofList mantissa ++ "e" ++ exponentText width d.magnitude

/-- How a format writes numbers: positionally while the leading digit is at a power of ten from
`least` up to and excluding `bound`, and scientifically beyond. -/
structure Layout where
  /-- The least power of ten of a leading digit written positionally. -/
  least : Int
  /-- The first power of ten written scientifically. -/
  bound : Int
  /-- The least number of digits in an exponent. -/
  width : Nat

/-- A number in a layout. -/
def render (l : Layout) (d : Decimal) : String :=
  if d.digits = 0 ∨ (l.least ≤ d.magnitude ∧ d.magnitude < l.bound) then d.positional
  else d.scientific l.width

/-- A whole number of thousandths. -/
def ofThousandths (n : Int) : Decimal := normal ⟨decide (n < 0), n.natAbs, -3⟩

end Decimal

end Exemplar
