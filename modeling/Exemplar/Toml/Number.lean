import Exemplar.Calendar
import Exemplar.Text.Digits
import Exemplar.Toml.Basic

/-!
# Numbers and moments in TOML

Numbers, dates and times of day are runs of letters, digits and a few marks. A run is taken whole
and then recognised as one of the forms, so that nothing is left over behind a number.
-/

namespace Exemplar.Toml

open Text (digitValue numeral)

/-- The digits of a base in a text where single underscores may stand between digits. `inside`
says whether the character before was a digit. -/
def digits? (base : Nat) (inside : Bool) : List Char → Option (List Char)
  | [] => if inside then some [] else none
  | c :: rest =>
    if c == '_' then
      if inside then digits? base false rest else none
    else if digitValue c < base then (digits? base true rest).map (c :: ·)
    else none

/-- A sign in front of a text, and the text behind it. -/
def splitSign : List Char → Bool × List Char
  | '-' :: rest => (true, rest)
  | '+' :: rest => (false, rest)
  | s => (false, s)

/-- Whether the digits of a decimal number have no needless zero in front. -/
def isTidy : List Char → Bool
  | '0' :: _ :: _ => false
  | _ => true

/-- A whole number that fits into 64 bits. -/
def fitting? (negative : Bool) (n : Nat) : Option Int :=
  if negative then if n ≤ Text.signLimit then some (-(n : Int)) else none
  else if n < Text.signLimit then some n else none

/-- A whole number. -/
def integer? (s : List Char) : Option Int :=
  match s with
  | '0' :: 'x' :: rest => (digits? 16 false rest).bind (fun ds => fitting? false (numeral 16 ds))
  | '0' :: 'o' :: rest => (digits? 8 false rest).bind (fun ds => fitting? false (numeral 8 ds))
  | '0' :: 'b' :: rest => (digits? 2 false rest).bind (fun ds => fitting? false (numeral 2 ds))
  | _ =>
    let (negative, body) := splitSign s
    (digits? 10 false body).bind (fun ds =>
      if isTidy ds then fitting? negative (numeral 10 ds) else none)

/-- The bits of `± m · 10 ^ e`. -/
def floatBits (negative : Bool) (m : Nat) (e : Int) : UInt64 :=
  let magnitude := Float.ofScientific m (e < 0) (min e.natAbs 4000)
  (if negative then -magnitude else magnitude).toBits

/-- The exponent behind its mark. -/
def exponent? (s : List Char) : Option Int :=
  let (negative, body) := splitSign s
  (digits? 10 false body).map (fun ds =>
    if negative then -(numeral 10 ds : Int) else numeral 10 ds)

/-- A number with a fraction or an exponent, or one of the special ones. -/
def float? (s : List Char) : Option UInt64 :=
  let (negative, body) := splitSign s
  if body == ['i', 'n', 'f'] then
    some ((if negative then -(1.0 / 0.0) else 1.0 / 0.0 : Float)).toBits
  else if body == ['n', 'a', 'n'] then some ((0.0 / 0.0 : Float)).toBits
  else do
    let isMark (c : Char) : Bool := c == 'e' || c == 'E'
    let mantissa := body.takeWhile (fun c => !isMark c)
    let tail := body.dropWhile (fun c => !isMark c)
    let power ← match tail with
      | [] => some 0
      | _ :: rest => exponent? rest
    let whole ← digits? 10 false (mantissa.takeWhile (· != '.'))
    if !isTidy whole then none
    match mantissa.dropWhile (· != '.') with
    | [] => if tail.isEmpty then none else some (floatBits negative (numeral 10 whole) power)
    | _ :: rest =>
      let fraction ← digits? 10 false rest
      some (floatBits negative (numeral 10 (whole ++ fraction)) (power - fraction.length))

/-! ## Moments -/

/-- What follows a date at the start of a text. -/
def afterDate? : List Char → Option (List Char)
  | a :: b :: c :: d :: '-' :: e :: f :: '-' :: g :: h :: rest =>
    if [a, b, c, d, e, f, g, h].all Char.isDigit then
      if Calendar.isDate (numeral 10 [a, b, c, d]) (numeral 10 [e, f]) (numeral 10 [g, h]) then
        some rest
      else none
    else none
  | _ => none

/-- What follows a fraction of a second, if there is one. -/
def afterFraction? : List Char → Option (List Char)
  | '.' :: rest =>
    if (rest.head?.map Char.isDigit).getD false then some (rest.dropWhile Char.isDigit) else none
  | s => some s

/-- What follows seconds and their fraction. -/
def afterSeconds? (d : Dialect) : List Char → Option (List Char)
  | ':' :: e :: f :: rest =>
    if e.isDigit && f.isDigit && numeral 10 [e, f] < 60 then afterFraction? rest else none
  | s => if d.shortTimes then some s else none

/-- What follows a time of day at the start of a text. -/
def afterTime? (d : Dialect) : List Char → Option (List Char)
  | a :: b :: ':' :: c :: e :: rest =>
    if [a, b, c, e].all Char.isDigit && numeral 10 [a, b] < 24 && numeral 10 [c, e] < 60 then
      afterSeconds? d rest
    else none
  | _ => none

/-- Whether a text is a distance from universal time. -/
def isOffset : List Char → Bool
  | ['Z'] => true
  | ['z'] => true
  | [sign, a, b, ':', c, d] =>
    (sign == '+' || sign == '-') && [a, b, c, d].all Char.isDigit && numeral 10 [a, b] < 24
      && numeral 10 [c, d] < 60
  | _ => false

/-- A date, a time of day or both, with or without a distance from universal time. -/
def moment? (d : Dialect) (s : List Char) : Option Data :=
  match afterDate? s with
  | some [] => some (.moment (String.ofList s) false)
  | some (mark :: time) =>
    if mark == 'T' || mark == 't' || mark == ' ' then
      match afterTime? d time with
      | some [] => some (.moment (String.ofList (s.take 10 ++ 'T' :: time)) false)
      | some zone =>
        if isOffset zone then some (.moment (String.ofList (s.take 10 ++ 'T' :: time)) true)
        else none
      | none => none
    else none
  | none =>
    match afterTime? d s with
    | some [] => some (.moment (String.ofList s) false)
    | _ => none

/-- The scalar a run of characters stands for. -/
def scalar? (d : Dialect) (s : List Char) : Option Data :=
  if s == ['t', 'r', 'u', 'e'] then some (.bool true)
  else if s == ['f', 'a', 'l', 's', 'e'] then some (.bool false)
  else ((integer? s).map .int <|> (float? s).map .float) <|> moment? d s

/-- Whether a character can be part of a number or a moment. -/
def isRunChar (c : Char) : Bool :=
  c.isAlphanum || c == '+' || c == '-' || c == '_' || c == '.' || c == ':'

/-- The run at the start of a text, and what follows. A date may go on with a time of day behind
a blank. -/
def run (s : List Char) : List Char × List Char :=
  let (first, rest) := s.span isRunChar
  match afterDate? first, rest with
  | some [], ' ' :: c :: more =>
    if c.isDigit then
      let (second, rest) := (c :: more).span isRunChar
      (first ++ ' ' :: second, rest)
    else (first, rest)
  | _, _ => (first, rest)

end Exemplar.Toml
