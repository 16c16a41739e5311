import Exemplar.Text.Digits

/-!
# Version numbers

A version has three numbers and, possibly, a prerelease in front of which it sorts. Reading is
lenient: a leading `v`, missing numbers and leading zeros are accepted. The parts of a prerelease
are compared one by one; numbers come before words, numbers are compared by value and words by
their characters.
-/

namespace Exemplar.Version

/-- Splits characters at each occurrence of one. -/
def splitAtChar (sep : Char) : List Char → List (List Char)
  | [] => [[]]
  | c :: rest =>
    if c == sep then [] :: splitAtChar sep rest
    else match splitAtChar sep rest with
      | [] => [[c]]
      | s :: more => (c :: s) :: more

/-- The value of decimal digits. -/
def digitsValue (ds : List Char) : Nat := ds.foldl (fun n d => n * 10 + (d.toNat - 48)) 0

/-- Whether characters are digits, and at least one. -/
def isNumeric (s : List Char) : Bool := !s.isEmpty && s.all Char.isDigit

/-- A number that fits 64 bits. -/
def number? (s : List Char) : Option Nat :=
  if isNumeric s && digitsValue s < Text.wordLimit then some (digitsValue s) else none

/-- Whether a character may stand in a part of a prerelease or of metadata. -/
def isPartChar (c : Char) : Bool := c.isDigit || c.isAlpha || c == '-'

/-- Whether characters are parts with points between them, none of them empty. -/
def isParts (s : List Char) : Bool :=
  (splitAtChar '.' s).all (fun p => !p.isEmpty && p.all isPartChar)

/-- The characters of a version, cut into its pieces but not yet understood. -/
structure Pieces where
  /-- The numbers, or what stands in their places. -/
  numbers : List (List Char)
  /-- The prerelease, empty when there is none. -/
  prerelease : List Char
deriving DecidableEq

/-- Cuts a version into pieces: at most three numbers over the given alphabet, a prerelease
behind `-` and metadata behind `+`. -/
def pieces? (isNumberChar : Char → Bool) (s : List Char) : Option Pieces :=
  let body := match s with
    | 'v' :: rest => rest
    | _ => s
  let core := body.takeWhile (fun c => isNumberChar c || c == '.')
  let tail := body.drop core.length
  let numbers := splitAtChar '.' core
  if numbers.length ≤ 3 && numbers.all (fun n => !n.isEmpty) then
    match tail with
    | [] => some ⟨numbers, []⟩
    | '-' :: rest =>
      let pre := rest.takeWhile (· != '+')
      match rest.drop pre.length with
      | [] => if isParts pre then some ⟨numbers, pre⟩ else none
      | _ :: metadata => if isParts pre && isParts metadata then some ⟨numbers, pre⟩ else none
    | '+' :: metadata => if isParts metadata then some ⟨numbers, []⟩ else none
    | _ => none
  else none

end Version

/-- A version. Metadata says nothing about order and is not kept. -/
structure Version where
  /-- The first number. -/
  major : Nat
  /-- The second number. -/
  minor : Nat
  /-- The third number. -/
  patch : Nat
  /-- The prerelease, empty when there is none. -/
  prerelease : List Char
deriving DecidableEq

namespace Version

/-- Whether a part of a prerelease is well formed: a number has no leading zero. -/
def isPrereleasePart (p : List Char) : Bool :=
  !(p.all Char.isDigit && 1 < p.length && p.head? == some '0')

/-- Understands the pieces of a version. -/
def ofPieces? (p : Pieces) : Option Version := do
  let numbers ← p.numbers.mapM number?
  if p.prerelease.isEmpty || (splitAtChar '.' p.prerelease).all isPrereleasePart then
    return ⟨numbers.getD 0 0, numbers.getD 1 0, numbers.getD 2 0, p.prerelease⟩
  else none

/-- Reads a version. -/
def parse? (s : String) : Option Version := (pieces? Char.isDigit s.toList).bind ofPieces?

/-- Compares two words by their characters. -/
def compareWords (a b : List Char) : Ordering :=
  if a == b then .eq else if decide (a < b) then .lt else .gt

/-- Compares two parts of prereleases, either of which may be missing. -/
def comparePart (a b : List Char) : Ordering :=
  if a == b then .eq
  else if a.isEmpty then .lt
  else if b.isEmpty then .gt
  else match number? a, number? b with
    | some m, some n => if n < m then .gt else .lt
    | some _, none => .lt
    | none, some _ => .gt
    | none, none => compareWords a b

/-- Compares prereleases part by part. -/
def compareParts : List (List Char) → List (List Char) → Ordering
  | [], [] => .eq
  | a :: as, [] => (comparePart a []).then (compareParts as [])
  | [], b :: bs => (comparePart [] b).then (compareParts [] bs)
  | a :: as, b :: bs => (comparePart a b).then (compareParts as bs)

/-- Compares the prereleases of versions with the same numbers: a version without one comes
last. -/
def comparePrerelease (a b : List Char) : Ordering :=
  match a, b with
  | [], [] => .eq
  | [], _ => .gt
  | _, [] => .lt
  | a, b => compareParts (splitAtChar '.' a) (splitAtChar '.' b)

/-- Compares versions. -/
def cmp (v w : Version) : Ordering :=
  (compare v.major w.major).then ((compare v.minor w.minor).then
    ((compare v.patch w.patch).then (comparePrerelease v.prerelease w.prerelease)))

/-- Whether a version comes before its release. -/
def isPrerelease (v : Version) : Bool := !v.prerelease.isEmpty

end Version

end Exemplar
