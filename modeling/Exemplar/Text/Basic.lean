/-!
# Source text

A unit is read from a file, and a file is a sequence of bytes that need not be well-formed UTF-8.
Reading goes byte group by byte group: a group that encodes a character is that character, and a
byte that starts no such group stands for itself. A `Glyph` is one such step, and a `Text` is a
list of them. Nothing is lost on the way in: `Text.encode` gives back the bytes, so a slice of a
text is a slice of the file, and an offset is a sum of widths.

Everything read from a unit, and everything written from it, is a `Text`: names, types and
generated builders. A stray byte in the middle of a name survives into the generated text, while
every comparison with a character sees U+FFFD in its place.
-/

namespace Exemplar

/-- One step of reading a file: a character, or a byte that starts no character. -/
inductive Glyph where
  /-- A character with a well-formed encoding. -/
  | char (c : Char)
  /-- A byte at which no well-formed encoding starts. -/
  | stray (b : UInt8)
deriving DecidableEq, Inhabited

namespace Glyph

/-- The character that stands for a byte which is none. -/
def replacement : Char := '\uFFFD'

/-- The character a glyph is read as. -/
def toChar : Glyph → Char
  | .char c => c
  | .stray _ => replacement

/-- The number of bytes a glyph takes in the file. -/
def width : Glyph → Nat
  | .char c => c.utf8Size
  | .stray _ => 1

/-- The bytes of a glyph. -/
def bytes : Glyph → List UInt8
  | .char c => String.utf8EncodeChar c
  | .stray b => [b]

/-- Whether a glyph is read as the given character. -/
def is (g : Glyph) (c : Char) : Bool := g.toChar == c

@[simp] theorem toChar_char (c : Char) : (char c).toChar = c := rfl

@[simp] theorem width_stray (b : UInt8) : (stray b).width = 1 := rfl

theorem width_pos (g : Glyph) : 0 < g.width := by
  cases g with
  | char c => exact c.utf8Size_pos
  | stray b => exact Nat.one_pos

end Glyph

/-- A text: the glyphs of a file, or of a slice of one. -/
abbrev Text := List Glyph

namespace Text

/-- The text of a string: every character with its own encoding, no stray byte. -/
def ofString (s : String) : Text := s.toList.map Glyph.char

instance : Coe String Text := ⟨ofString⟩

/-- A text as it is shown: a stray byte shows as U+FFFD. -/
def toString (t : Text) : String := String.ofList (t.map Glyph.toChar)

/-- The number of bytes of a text. -/
def byteSize (t : Text) : Nat := t.foldr (fun g n => g.width + n) 0

/-- The bytes of a text. -/
def encode (t : Text) : List UInt8 := t.flatMap Glyph.bytes

/-- Whether a byte can only stand inside an encoding, after its first byte. -/
def isTail (b : UInt8) : Bool := 0x80 ≤ b && b ≤ 0xBF

/-- The six low bits of a byte inside an encoding. -/
def tailBits (b : UInt8) : Nat := b.toNat % 0x40

/-- The character encoded by two bytes, if they encode one. -/
def twoBytes? (a b : UInt8) : Option Char :=
  if 0xC2 ≤ a && a ≤ 0xDF && isTail b then
    some (Char.ofNat ((a.toNat - 0xC0) * 0x40 + tailBits b))
  else none

/-- The character encoded by three bytes, if they encode one: the shortest form is required, and
surrogates are no characters. -/
def threeBytes? (a b c : UInt8) : Option Char :=
  if 0xE0 ≤ a && a ≤ 0xEF && isTail b && isTail c && (a != 0xE0 || 0xA0 ≤ b)
      && (a != 0xED || b ≤ 0x9F) then
    some (Char.ofNat ((a.toNat - 0xE0) * 0x1000 + tailBits b * 0x40 + tailBits c))
  else none

/-- The character encoded by four bytes, if they encode one: the shortest form is required, and
there is nothing beyond U+10FFFF. -/
def fourBytes? (a b c d : UInt8) : Option Char :=
  if 0xF0 ≤ a && a ≤ 0xF4 && isTail b && isTail c && isTail d && (a != 0xF0 || 0x90 ≤ b)
      && (a != 0xF4 || b ≤ 0x8F) then
    some (Char.ofNat
      ((a.toNat - 0xF0) * 0x40000 + tailBits b * 0x1000 + tailBits c * 0x40 + tailBits d))
  else none

/-- The character whose encoding starts with byte `a` and goes on with the bytes behind it, and
how many of those it takes. At most one form fits, for the first byte decides the length. -/
def leading? (a : UInt8) (rest : List UInt8) : Option (Char × Nat) :=
  if a < 0x80 then some (Char.ofNat a.toNat, 0)
  else match rest with
    | b :: c :: d :: _ =>
      (twoBytes? a b).map (·, 1) <|> (threeBytes? a b c).map (·, 2)
        <|> (fourBytes? a b c d).map (·, 3)
    | [b, c] => (twoBytes? a b).map (·, 1) <|> (threeBytes? a b c).map (·, 2)
    | [b] => (twoBytes? a b).map (·, 1)
    | [] => none

/-- Reads bytes of which the first `skip` belong to a character already read. -/
def decodeFrom (skip : Nat) : List UInt8 → Text
  | [] => []
  | b :: rest =>
    match skip with
    | k + 1 => decodeFrom k rest
    | 0 =>
      match leading? b rest with
      | some (c, n) => .char c :: decodeFrom n rest
      | none => .stray b :: decodeFrom 0 rest

/-- Reads bytes. At each place the one well-formed encoding that starts there is a character;
where none starts, the byte is stray and reading goes on behind it. -/
def decode (bytes : List UInt8) : Text := decodeFrom 0 bytes

/-- The order of texts by their bytes, the order in which names are listed. -/
def le (s t : Text) : Bool := decide (s.encode ≤ t.encode)

/-- The glyphs of a text between two offsets, where the text itself starts at offset `here`. -/
def sliceFrom (start stop : Nat) (here : Nat) : Text → Text
  | [] => []
  | g :: rest =>
    if stop ≤ here then []
    else if here < start then sliceFrom start stop (here + g.width) rest
    else g :: sliceFrom start stop (here + g.width) rest

/-- The glyphs between two byte offsets, for offsets at which glyphs meet. -/
def slice (t : Text) (start stop : Nat) : Text :=
  sliceFrom start stop 0 t

/-- Joins texts with a separator between each two. -/
def join (sep : Text) : List Text → Text
  | [] => []
  | [t] => t
  | t :: u :: rest => t ++ sep ++ join sep (u :: rest)

@[simp] theorem byteSize_nil : byteSize [] = 0 := rfl

@[simp] theorem byteSize_cons (g : Glyph) (t : Text) :
    byteSize (g :: t) = g.width + byteSize t := by
  simp [byteSize]

@[simp] theorem byteSize_append (s t : Text) : byteSize (s ++ t) = byteSize s + byteSize t := by
  induction s with
  | nil => simp
  | cons g rest ih => simp [ih, Nat.add_assoc]

@[simp] theorem ofString_append (s t : String) :
    ofString (s ++ t) = ofString s ++ ofString t := by
  simp [ofString]

/-- The text of a string given by its characters. A literal is such a string: evaluating a text
by its characters is much faster than by the bytes that a literal has. -/
theorem ofString_ofList (l : List Char) : ofString (String.ofList l) = l.map Glyph.char := by
  rw [ofString, String.toList_ofList]

@[simp] theorem join_nil (sep : Text) : join sep [] = [] := rfl

@[simp] theorem join_singleton (sep t : Text) : join sep [t] = t := rfl

end Text

end Exemplar
