import Exemplar.Decimal.Basic

/-!
# The shortest decimal of a binary number

A binary floating-point number stands for every real number nearer to it than to its neighbours.
Of the decimals in that interval the ones with the fewest digits are preferred, and of those the
nearest. For each number of digits it is enough to look at the two decimals around the value: if
any decimal of that length lies in the interval, one of these two does.

All of it is computed with whole numbers: bounds and value are multiples of a common unit, and a
decimal grid is another.
-/

namespace Exemplar.Decimal

/-- The widths of the parts of a binary format. -/
structure BinaryFormat where
  /-- The number of bits of the mantissa that are stored. -/
  mantissaBits : Nat
  /-- The number of bits of the exponent. -/
  exponentBits : Nat

/-- The format with 64 bits. -/
def binary64 : BinaryFormat := ⟨52, 11⟩

/-- The format with 32 bits. -/
def binary32 : BinaryFormat := ⟨23, 8⟩

/-- What the bits of a format stand for. -/
inductive BinaryValue where
  /-- No number. -/
  | nan
  /-- An infinity. -/
  | infinite (negative : Bool)
  /-- The number `± mantissa · 2 ^ exponent`. The neighbour below is at half the distance when
  `narrow` is set. -/
  | finite (negative : Bool) (mantissa : Nat) (exponent : Int) (narrow : Bool)

namespace BinaryFormat

/-- The stored exponent of a number whose leading bit is the one before the point. -/
def bias (f : BinaryFormat) : Nat := Nat.pow 2 (f.exponentBits - 1) - 1

/-- Reads the bits of a number. -/
def decode (f : BinaryFormat) (bits : Nat) : BinaryValue :=
  let fraction := bits % Nat.pow 2 f.mantissaBits
  let stored := bits / Nat.pow 2 f.mantissaBits % Nat.pow 2 f.exponentBits
  let negative := bits / Nat.pow 2 (f.mantissaBits + f.exponentBits) % 2 = 1
  if stored = Nat.pow 2 f.exponentBits - 1 then
    if fraction = 0 then .infinite negative else .nan
  else if stored = 0 then
    .finite negative fraction (1 - (f.bias : Int) - f.mantissaBits) false
  else
    .finite negative (Nat.pow 2 f.mantissaBits + fraction)
      ((stored : Int) - f.bias - f.mantissaBits) (fraction = 0 ∧ 1 < stored)

end BinaryFormat

/-- The interval of a binary number, in multiples of a unit: `low`, `value` and `high` over
`unit`. -/
structure Interval where
  /-- The lower end. -/
  low : Nat
  /-- The number itself. -/
  value : Nat
  /-- The upper end. -/
  high : Nat
  /-- How many of these make one. -/
  unit : Nat
  /-- Whether the ends belong to it. -/
  closed : Bool

/-- The interval of `mantissa · 2 ^ exponent`. A number with an even mantissa also gets the ends,
because reading rounds a tie to it. -/
def Interval.of (mantissa : Nat) (exponent : Int) (narrow : Bool) : Interval :=
  let up := Nat.pow 2 (exponent - 2).toNat
  let down := Nat.pow 2 (2 - exponent).toNat
  { low := (4 * mantissa - if narrow then 1 else 2) * up
    value := 4 * mantissa * up
    high := (4 * mantissa + 2) * up
    unit := down
    closed := mantissa % 2 = 0 }

/-- The power of ten of the leading digit of `value / unit`, for a positive value. -/
def leadingPower (value unit : Nat) : Int :=
  if unit ≤ value then ((Nat.toDigits 10 (value / unit)).length : Int) - 1
  else -((Nat.toDigits 10 ((unit - 1) / value)).length : Int)

/-- Whether `d · 10 ^ k` lies in an interval. -/
def Interval.holds (i : Interval) (d : Nat) (k : Int) : Bool :=
  let x := d * Nat.pow 10 k.toNat * i.unit
  let scale := Nat.pow 10 (-k).toNat
  if i.closed then i.low * scale ≤ x ∧ x ≤ i.high * scale
  else i.low * scale < x ∧ x < i.high * scale

/-- The decimal on the grid `10 ^ k` that lies in an interval and is nearest to its value, if one
of the two around the value does. Of two at the same distance the even one is taken. -/
def Interval.onGrid? (i : Interval) (k : Int) : Option Nat :=
  let scale := Nat.pow 10 (-k).toNat
  let step := Nat.pow 10 k.toNat * i.unit
  let d := i.value * scale / step
  let below := i.value * scale - d * step
  let above := (d + 1) * step - i.value * scale
  match i.holds d k, i.holds (d + 1) k with
  | true, true =>
    some (if below < above ∨ (below = above ∧ d % 2 = 0) then d else d + 1)
  | true, false => some d
  | false, true => some (d + 1)
  | false, false => none

/-- Tries grids of `count` digits and more, at most `fuel` of them. -/
def Interval.search (i : Interval) (lead : Int) : Nat → Nat → Option (Nat × Int)
  | 0, _ => none
  | fuel + 1, count =>
    let k := lead + 1 - count
    match i.onGrid? k with
    | some d => some (d, k)
    | none => i.search lead fuel (count + 1)

/-- The number of digits that always suffices. -/
def digitBound : Nat := 17

/-- The shortest decimal that reads back as `± mantissa · 2 ^ exponent`. -/
def shortest (negative : Bool) (mantissa : Nat) (exponent : Int) (narrow : Bool) : Decimal :=
  if mantissa = 0 then ⟨negative, 0, 0⟩
  else
    let i := Interval.of mantissa exponent narrow
    match i.search (leadingPower i.value i.unit) digitBound 1 with
    | some (d, k) => normal ⟨negative, d, k⟩
    | none => ⟨negative, 0, 0⟩

/-- How a format writes floating-point numbers. -/
structure FloatLayout where
  /-- The layout of a finite number. -/
  finite : Decimal → String
  /-- The text of what is no number. -/
  nan : String
  /-- The text of infinity. -/
  infinity : String
  /-- The text of minus infinity. -/
  minusInfinity : String

/-- A floating-point number, given by its bits, in a layout. -/
def renderBits (l : FloatLayout) (f : BinaryFormat) (bits : Nat) : String :=
  match f.decode bits with
  | .nan => l.nan
  | .infinite negative => if negative then l.minusInfinity else l.infinity
  | .finite negative mantissa exponent narrow =>
    l.finite (shortest negative mantissa exponent narrow)

/-- The layout that never uses an exponent. -/
def plainLayout : FloatLayout := ⟨positional, "NaN", "+Inf", "-Inf"⟩

/-- The layout with an exponent below a ten-thousandth and from a million on. -/
def generalLayout : FloatLayout := ⟨render ⟨-4, 6, 2⟩, "NaN", "+Inf", "-Inf"⟩

end Exemplar.Decimal
