import Exemplar.Failure
import Exemplar.Version.Number

/-!
# Version constraints

A constraint is a list of alternatives separated by `||`, each of them comparisons that must all
hold. A comparison may leave numbers open, by writing `x`, `X` or `*` for them or by leaving them
out; what is open decides how far the comparison reaches. `A - B` with blanks around the dash is
short for `>= A, <= B`.

A prerelease is not meant by a constraint unless one of its comparisons names a prerelease.
-/

namespace Exemplar

namespace Version

/-- The blanks of a constraint. -/
def isGap (c : Char) : Bool := c == ' ' || c == '\t' || c == '\n' || c == '\x0c' || c == '\r'

/-- The characters that may stand in the place of a number in a constraint. -/
def isOpenChar (c : Char) : Bool := c.isDigit || c == '|' || c == 'x' || c == 'X' || c == '*'

/-! ## Ranges -/

/-- The part of a constraint up to the first character that cannot belong to a list of parts, as
far as it is one: parts with points between them, none of them empty. -/
def partsReach : List Char → Nat
  | s =>
    let run := s.takeWhile isPartChar
    if run.isEmpty then 0
    else go run.length (s.drop run.length) s.length
where
  /-- Adds further parts behind the first `n` characters. -/
  go (n : Nat) (rest : List Char) : Nat → Nat
    | 0 => n
    | fuel + 1 =>
      match rest with
      | '.' :: more =>
        let run := more.takeWhile isPartChar
        if run.isEmpty then n
        else go (n + 1 + run.length) (more.drop run.length) fuel
      | _ => n

/-- How far an open version reaches from the beginning of a text; zero if none starts there. -/
def openReach (s : List Char) : Nat :=
  let v := match s with
    | 'v' :: _ => 1
    | _ => 0
  let first := ((s.drop v).takeWhile isOpenChar).length
  if first == 0 then 0
  else
    let another (n : Nat) : Nat :=
      match s.drop n with
      | '.' :: rest =>
        let run := (rest.takeWhile isOpenChar).length
        if run == 0 then n else n + 1 + run
      | _ => n
    let suffix (mark : Char) (n : Nat) : Nat :=
      match s.drop n with
      | c :: rest =>
        if c == mark then
          let run := partsReach rest
          if run == 0 then n else n + 1 + run
        else n
      | [] => n
    let one := v + first
    let two := another one
    let three := if two == one then one else another two
    suffix '+' (suffix '-' three)

/-- A range `A - B` found at the beginning of a text: its whole length with the blanks around it,
and its two ends. -/
def rangeAt? (s : List Char) : Option (Nat × List Char × List Char) :=
  let lead := (s.takeWhile isGap).length
  let low := (s.drop lead).takeWhile (fun c => !isGap c)
  if low.isEmpty || openReach low != low.length then none
  else
    let afterLow := s.drop (lead + low.length)
    let gap₁ := (afterLow.takeWhile isGap).length
    match afterLow.drop gap₁ with
    | '-' :: afterDash =>
      let gap₂ := (afterDash.takeWhile isGap).length
      let highText := afterDash.drop gap₂
      let high := highText.take (openReach highText)
      if gap₁ == 0 || gap₂ == 0 || high.isEmpty then none
      else
        let trail := ((highText.drop high.length).takeWhile isGap).length
        some (lead + low.length + gap₁ + 1 + gap₂ + high.length + trail, low, high)
    | _ => none

/-- The ranges of a text from left to right, each with the text it is written as. The first
`skip` characters belong to a range already found. -/
def rangesFrom (skip : Nat) : List Char → List (List Char × List Char × List Char)
  | [] => []
  | c :: rest =>
    match skip with
    | k + 1 => rangesFrom k rest
    | 0 =>
      match rangeAt? (c :: rest) with
      | some (n, low, high) => ((c :: rest).take n, low, high) :: rangesFrom (n - 1) rest
      | none => rangesFrom 0 rest

/-- Replaces the first occurrence of a text by another. -/
def replaceFirst (old new : List Char) : List Char → List Char
  | [] => if old.isEmpty then new else []
  | c :: rest =>
    if old.isPrefixOf (c :: rest) then new ++ (c :: rest).drop old.length
    else c :: replaceFirst old new rest

/-- Writes every range as two comparisons. -/
def expandRanges (s : List Char) : List Char :=
  (rangesFrom 0 s).foldl (fun text r =>
    replaceFirst r.1 (">= ".toList ++ r.2.1 ++ ", <= ".toList ++ r.2.2 ++ [' ']) text) s

/-! ## Comparisons -/

/-- The comparisons. -/
inductive Operator where
  /-- The same, as far as numbers are given. -/
  | same
  /-- Different, as far as numbers are given. -/
  | different
  /-- Later. -/
  | later
  /-- Earlier. -/
  | earlier
  /-- The same or later. -/
  | notEarlier
  /-- The same or earlier. -/
  | notLater
  /-- Later, within the second number. -/
  | tilde
  /-- Later, without a break. -/
  | caret
deriving DecidableEq

/-- The comparison a text stands for. -/
def Operator.ofText? (s : List Char) : Option Operator :=
  match String.ofList s with
  | "" | "=" => some .same
  | "!=" => some .different
  | ">" => some .later
  | "<" => some .earlier
  | ">=" | "=>" => some .notEarlier
  | "<=" | "=<" => some .notLater
  | "~" | "~>" => some .tilde
  | "^" => some .caret
  | _ => none

/-- How much of a version a comparison leaves open. -/
inductive Openness where
  /-- Nothing. -/
  | exact
  /-- The third number. -/
  | patch
  /-- The second and the third number. -/
  | minor
  /-- Everything. -/
  | all
deriving DecidableEq

/-- One comparison with a version. -/
structure Comparison where
  /-- The comparison. -/
  operator : Operator
  /-- The version, with zeros for what is open. -/
  version : Version
  /-- What is open. -/
  openness : Openness
deriving DecidableEq

/-- Whether the place of a number is left open. -/
def isOpenNumber (n : Option (List Char)) : Bool :=
  match n with
  | none => true
  | some n => n == ['x'] || n == ['X'] || n == ['*']

/-- A comparison with an open version. -/
def Comparison.ofPieces? (operator : Operator) (p : Pieces) : Option Comparison := do
  let zero := ['0']
  let major := p.numbers[0]?
  let minor := p.numbers[1]?
  let patch := p.numbers[2]?
  let (numbers, openness) :=
    if isOpenNumber major then ([zero, zero, zero], Openness.all)
    else if isOpenNumber minor then ([major.getD zero, zero, zero], .minor)
    else if isOpenNumber patch then ([major.getD zero, minor.getD zero, zero], .patch)
    else (p.numbers, .exact)
  let version ← Version.ofPieces? ⟨numbers, p.prerelease⟩
  return ⟨operator, version, openness⟩

namespace Comparison

/-- Whether a version is at least that of a comparison and agrees with it in the numbers that
must not change. -/
def tilde (c : Comparison) (v : Version) : Bool :=
  let w := c.version
  if v.cmp w == .lt then false
  else if w.major == 0 && w.minor == 0 && w.patch == 0 && c.openness != .minor
      && c.openness != .patch then true
  else v.major == w.major && (v.minor == w.minor || c.openness == .minor)

/-- Whether a version is at least that of a comparison and has the same first number that is not
zero. -/
def caret (c : Comparison) (v : Version) : Bool :=
  let w := c.version
  if v.cmp w == .lt then false
  else if 0 < w.major || c.openness == .minor then v.major == w.major
  else if 0 < v.major then false
  else if 0 < w.minor || c.openness == .patch then v.minor == w.minor
  else v.minor == 0 && v.patch == w.patch

/-- Whether a version differs from that of a comparison where numbers are given. -/
def differs (c : Comparison) (v : Version) : Bool :=
  let w := c.version
  match c.openness with
  | .exact => v.cmp w != .eq
  | .minor => v.major != w.major
  | .patch =>
    v.major != w.major || v.minor != w.minor
      || ((v.isPrerelease || w.isPrerelease)
        && compareParts (splitAtChar '.' v.prerelease) (splitAtChar '.' w.prerelease) != .eq)
  | .all => v.cmp w != .eq

/-- Whether a version is later than everything that a comparison stands for. -/
def isLater (c : Comparison) (v : Version) : Bool :=
  let w := c.version
  match c.openness with
  | .minor => w.major < v.major
  | .patch => w.major < v.major || (v.major == w.major && w.minor < v.minor)
  | _ => v.cmp w == .gt

/-- Whether a version is not later than everything that a comparison stands for. -/
def isNotLater (c : Comparison) (v : Version) : Bool :=
  let w := c.version
  match c.openness with
  | .exact => v.cmp w != .gt
  | .minor => v.major ≤ w.major
  | _ => v.major ≤ w.major && !(v.major == w.major && w.minor < v.minor)

/-- Whether a comparison holds of a version, prereleases not being treated in any special way. -/
def holds (c : Comparison) (v : Version) : Bool :=
  match c.operator with
  | .same => if c.openness == .exact then v.cmp c.version == .eq else c.tilde v
  | .different => c.differs v
  | .later => c.isLater v
  | .earlier => v.cmp c.version == .lt
  | .notEarlier => v.cmp c.version != .lt
  | .notLater => c.isNotLater v
  | .tilde => c.tilde v
  | .caret => c.caret v

end Comparison

/-! ## Reading constraints -/

/-- Whether a character belongs to the sign of a comparison. -/
def isOperatorChar (c : Char) : Bool :=
  c == '=' || c == '!' || c == '<' || c == '>' || c == '~' || c == '^'

/-- Why a constraint cannot be read. -/
inductive ConstraintError where
  /-- An alternative is not a list of comparisons. -/
  | improper (text : List Char)
  /-- A version in it is no version. -/
  | version
deriving DecidableEq

/-- What a message says about a constraint that cannot be read. -/
def ConstraintError.message : ConstraintError → String
  | .improper text => "improper constraint: " ++ String.ofList text
  | .version => "constraint parser error"

/-- The comparisons of an alternative, as signs and pieces of versions. They are separated by
blanks or by a comma. -/
def comparisonsFrom (s : List Char) : Nat → Option (List (Operator × Pieces))
  | 0 => none
  | fuel + 1 => do
    let sign := s.takeWhile isOperatorChar
    let operator ← Operator.ofText? sign
    let rest := (s.drop sign.length).dropWhile isGap
    let token := rest.takeWhile (fun c => !isGap c && c != ',')
    let pieces ← pieces? isOpenChar token
    let after := rest.drop token.length
    let next := after.dropWhile isGap
    match next with
    | [] => return [(operator, pieces)]
    | ',' :: more =>
      let others ← comparisonsFrom (more.dropWhile isGap) fuel
      return (operator, pieces) :: others
    | _ =>
      let others ← comparisonsFrom next fuel
      return (operator, pieces) :: others

/-- One alternative of a constraint. -/
def alternative (s : List Char) : Except ConstraintError (List Comparison) := do
  match comparisonsFrom (s.dropWhile isGap) (s.length + 1) with
  | none => throw (.improper s)
  | some found =>
    found.mapM (fun p =>
      match Comparison.ofPieces? p.1 p.2 with
      | some c => .ok c
      | none => .error .version)

/-- The alternatives of a constraint, as texts. -/
def splitAlternatives : List Char → List (List Char)
  | [] => [[]]
  | '|' :: '|' :: rest => [] :: splitAlternatives rest
  | c :: rest =>
    match splitAlternatives rest with
    | [] => [[c]]
    | s :: more => (c :: s) :: more

/-- A constraint: alternatives, each of them comparisons that must all hold. -/
abbrev Constraint := List (List Comparison)

/-- Reads a constraint. -/
def Constraint.parse (s : String) : Except ConstraintError Constraint :=
  (splitAlternatives (expandRanges s.toList)).mapM alternative

/-- Whether a version meets an alternative. -/
def meets (v : Version) (alternative : List Comparison) : Bool :=
  (!v.isPrerelease || alternative.any (fun c => c.version.isPrerelease))
    && alternative.all (fun c => c.holds v)

/-- Whether a version meets a constraint. -/
def Constraint.check (c : Constraint) (v : Version) : Bool := c.any v.meets

/-- Checks that the running version meets a constraint. No constraint is always met, and so is
every constraint by a build whose version is no version. -/
def require (constraint current : String) : Except Failure Unit :=
  if constraint.isEmpty then .ok ()
  else match Constraint.parse constraint with
    | .error e => .error (.wrongConstraint constraint e.message)
    | .ok c =>
      match Version.parse? current with
      | none => .ok ()
      | some v =>
        if c.check v then .ok () else .error (.unmetConstraint constraint current)

end Version

end Exemplar
