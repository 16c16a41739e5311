import Exemplar.Text.Basic

/-!
# Positions in a source

A position counts three things at once: the line, the glyph within the line, and the byte within
the file. Lines count from one and the other two from zero. Positions are never computed from an
index: a position moves over the glyphs that are read, so the three counts cannot drift apart.
-/

namespace Exemplar

/-- A place between two glyphs of a source. -/
structure Position where
  /-- The line, counted from one. -/
  line : Nat
  /-- The number of glyphs before the place on its line. -/
  character : Nat
  /-- The number of bytes before the place in the source. -/
  offset : Nat
deriving DecidableEq, Inhabited

namespace Position

/-- The beginning of a source. -/
def start : Position := ⟨1, 0, 0⟩

/-- The place before any source, where reading stands until it has read something. -/
def unset : Position := ⟨0, 0, 0⟩

/-- The place behind one more glyph. -/
def step (p : Position) (g : Glyph) : Position :=
  if g.is '\n' then ⟨p.line + 1, 0, p.offset + g.width⟩
  else ⟨p.line, p.character + 1, p.offset + g.width⟩

/-- The place behind a text that starts at `p`. -/
def after (p : Position) (t : Text) : Position := t.foldl step p

@[simp] theorem after_nil (p : Position) : p.after [] = p := rfl

@[simp] theorem after_cons (p : Position) (g : Glyph) (t : Text) :
    p.after (g :: t) = (p.step g).after t := rfl

@[simp] theorem after_append (p : Position) (s t : Text) :
    p.after (s ++ t) = (p.after s).after t := by
  simp [after, List.foldl_append]

@[simp] theorem offset_step (p : Position) (g : Glyph) :
    (p.step g).offset = p.offset + g.width := by
  unfold step; split <;> rfl

/-- The offset behind a text is its offset plus its bytes. -/
theorem offset_after (p : Position) (t : Text) : (p.after t).offset = p.offset + t.byteSize := by
  induction t generalizing p with
  | nil => simp
  | cons g t ih => simp [ih, Nat.add_assoc]

end Position

/-- A piece of a source, from one place to another. -/
structure Span where
  /-- Where it starts. -/
  start : Position
  /-- Where it stops. -/
  stop : Position
deriving DecidableEq, Inhabited

/-- The span of something that was never read. -/
def Span.unset : Span := ⟨.unset, .unset⟩

end Exemplar
