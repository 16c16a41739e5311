import Exemplar.Text.Basic

/-!
# Blank characters

The blanks that separate tokens are the white space of the Unicode standard and the byte-order
mark. Four of them end a line; only U+000A starts a new one in the count of positions.
-/

namespace Exemplar.Text

/-- White space in the sense of the Unicode standard. -/
def isSpace (c : Char) : Bool :=
  let n := c.toNat
  (9 ≤ n && n ≤ 13) || n == 0x20 || n == 0x85 || n == 0xA0 || n == 0x1680
    || (0x2000 ≤ n && n ≤ 0x200A) || n == 0x2028 || n == 0x2029 || n == 0x202F || n == 0x205F
    || n == 0x3000

/-- A character that may stand between two tokens without belonging to either. -/
def isBlank (c : Char) : Bool := isSpace c || c == '\uFEFF'

/-- A character that ends a line for the purpose of deciding where a statement may stop. -/
def isLineEnd (c : Char) : Bool :=
  c == '\n' || c == '\r' || c == '\u2028' || c == '\u2029'

/-- **A line end is a blank.** -/
theorem isBlank_of_isLineEnd {c : Char} (h : isLineEnd c = true) : isBlank c = true := by
  simp only [isLineEnd, Bool.or_eq_true, beq_iff_eq] at h
  rcases h with ((rfl | rfl) | rfl) | rfl <;> decide

end Exemplar.Text
