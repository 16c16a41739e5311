import Exemplar.Text.Blank

/-!
# Gaps between tokens

Between two tokens stand blanks, comments to the end of the line, and block comments. The scan
of a gap is one walk over the glyphs, one at a time. It stops at the first glyph that can belong
to a token, and it reports three things: how many glyphs the gap has, whether a line ends in it,
and whether every block comment in it is closed.

A comment to the end of the line stops before the line feed, which is then a blank like any
other. Inside a block comment only the line feed counts as the end of a line; outside, all four
line ends do.
-/

namespace Exemplar

/-- What the scan of a gap found. -/
structure Gap where
  /-- The number of glyphs in the gap. -/
  length : Nat
  /-- Whether a line ends in the gap. -/
  newline : Bool
  /-- Whether every block comment in the gap is closed. -/
  closed : Bool
deriving DecidableEq

namespace Gap

/-- Where the scan of a gap stands. -/
inductive Mode where
  /-- Between comments. -/
  | blank
  /-- In a comment that ends with the line. -/
  | line
  /-- Between the two glyphs that open a block comment. -/
  | opening
  /-- In a block comment. -/
  | block
  /-- Between the two glyphs that close a block comment. -/
  | closing
deriving DecidableEq

/-- No gap at all. -/
def none : Gap := ⟨0, false, true⟩

/-- A gap with `n` more glyphs in front, among which a line may end. -/
def extend (n : Nat) (newline : Bool) (g : Gap) : Gap :=
  ⟨n + g.length, newline || g.newline, g.closed⟩

/-- Whether a text starts with a character. -/
def startsWith (t : Text) (c : Char) : Bool := t.head?.any (·.is c)

/-- Where the scan stands behind one more glyph and whether a line ends with it, if the glyph
belongs to the gap. The text behind the glyph decides what a slash or a star means. -/
def Mode.next? : Mode → Glyph → Text → Option (Mode × Bool)
  | .blank, g, rest =>
    if Text.isLineEnd g.toChar then some (.blank, true)
    else if Text.isBlank g.toChar then some (.blank, false)
    else if g.is '/' && startsWith rest '/' then some (.line, false)
    else if g.is '/' && startsWith rest '*' then some (.opening, false)
    else Option.none
  | .line, g, _ => if g.is '\n' then some (.blank, true) else some (.line, false)
  | .opening, _, _ => some (.block, false)
  | .block, g, rest =>
    if g.is '*' && startsWith rest '/' then some (.closing, false)
    else some (.block, g.is '\n')
  | .closing, _, _ => some (.blank, false)

/-- Whether a source may end where the scan stands. -/
def Mode.mayEnd (m : Mode) : Bool := m == .blank || m == .line

/-- Scans a gap from a given mode. -/
def scan (m : Mode) : Text → Gap
  | [] => ⟨0, false, m.mayEnd⟩
  | g :: rest =>
    match m.next? g rest with
    | some (m', newline) => (scan m' rest).extend 1 newline
    | Option.none => none

/-- The gap at the beginning of a text. -/
def before (t : Text) : Gap := scan .blank t

end Gap

end Exemplar
