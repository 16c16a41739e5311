import Exemplar.Proofs.Text.Splicing
import Exemplar.Proofs.Text.Unquoting
import Exemplar.Proofs.Token.Partition
import Mathlib.Data.List.DropRight

/-!
# Positions are faithful

A position is carried along while glyphs are read, and it is meant to be a function of the bytes
in front of it: how many there are, how many line feeds are among them, and how many characters
stand behind the last of these. `Position.Faithful` says so without mention of any reading, and
whoever moves a position over a beginning of a file arrives at a faithful one.

Lines are counted among bytes and not among characters. That is the same, because the byte of a
line feed stands in no encoding but its own and is never stray. Where the last line begins, the
file can therefore be cut, and the line is decoded by itself as it was decoded within the file.
-/

namespace Exemplar

open Text (decode)

/-- The byte of a line feed. -/
def lineFeed : UInt8 := 0x0a

/-- The place is what the bytes in front of it say. -/
structure Position.Faithful (bytes : List UInt8) (p : Position) : Prop where
  /-- The offset is one of the file. -/
  offset_le : p.offset ≤ bytes.length
  /-- No character of the file is cut in two there. -/
  boundary : decode bytes = decode (bytes.take p.offset) ++ decode (bytes.drop p.offset)
  /-- Lines are counted by their line feeds. -/
  line : p.line = 1 + (bytes.take p.offset).count lineFeed
  /-- Characters are counted on the last line. -/
  character : p.character = (decode ((bytes.take p.offset).rtakeWhile (· != lineFeed))).length

variable {bytes : List UInt8} {g : Glyph} {front rest t : Text}

namespace Glyph

/-- The one glyph with a line feed among its bytes is the line feed. -/
theorem lineFeed_notMem_bytes (hg : g.is '\n' = false)
    (hstray : ∀ b, g = .stray b → 0x80 ≤ b.toNat) :
    lineFeed ∉ g.bytes := by
  intro hmem
  cases g with
  | stray b =>
    have hb : lineFeed = b := List.mem_singleton.1 hmem
    have hle := hstray b rfl
    rw [← hb] at hle
    exact absurd hle (by decide)
  | char c =>
    -- what is read from the bytes of a character is this character and not more
    obtain ⟨xs, ys, hsplit⟩ := List.append_of_mem hmem
    have hread := Text.decode_char_append c []
    rw [List.append_nil, hsplit, Text.decode_append (by decide)] at hread
    cases hxs : decode xs with
    | nil =>
      rw [hxs, List.nil_append] at hread
      have hc : c = '\n' := (Glyph.char.inj (List.cons.inj hread).1).symm
      rw [hc] at hg
      cases hg
    | cons g' u =>
      rw [hxs] at hread
      have hnil := (List.cons.inj hread).2
      exact absurd hnil (List.append_ne_nil_of_right_ne_nil _ (List.cons_ne_nil _ _))

theorem eq_lineFeed (hg : g.is '\n' = true) : g = .char '\n' := eq_char_of_is hg (by decide)

end Glyph

namespace Position

/-! ## Counting over texts -/

/-- A place is a line further for each line feed. -/
theorem line_after (p : Position) (t : Text) :
    (p.after t).line = p.line + t.countP (·.is '\n') := by
  induction t generalizing p with
  | nil => rfl
  | cons g t ih =>
    rw [after_cons, ih, List.countP_cons, step]
    cases g.is '\n' with
    | true => exact Nat.add_right_comm _ 1 _
    | false => rfl

/-- Behind a text stands what is left of its last line. -/
theorem character_after_start (t : Text) :
    (start.after t).character = (t.rtakeWhile fun g => !g.is '\n').length := by
  induction t using List.reverseRecOn with
  | nil => rfl
  | append_singleton t g ih =>
    rw [after_append, after_cons, after_nil, List.rtakeWhile_concat, step]
    cases g.is '\n' with
    | true => rfl
    | false => simpa using ih

end Position

namespace Text

/-! ## Line feeds among the bytes -/

/-- **The line feeds of a text are those among its bytes.** -/
theorem count_encode (ht : t.StraysHigh) : t.encode.count lineFeed = t.countP (·.is '\n') := by
  induction t with
  | nil => rfl
  | cons g t ih =>
    rw [encode_cons, List.count_append, List.countP_cons,
      ih fun b hb => ht b (List.mem_cons_of_mem _ hb), Nat.add_comm]
    cases hg : g.is '\n' with
    | true => rw [Glyph.eq_lineFeed hg]; rfl
    | false =>
      rw [List.count_eq_zero.2
        (Glyph.lineFeed_notMem_bytes hg fun b hb => ht b (hb ▸ List.mem_cons_self))]
      rfl

theorem rtakeWhile_append_of_all {p : UInt8 → Bool} {xs ys : List UInt8}
    (h : ∀ y ∈ ys, p y = true) :
    (xs ++ ys).rtakeWhile p = xs.rtakeWhile p ++ ys := by
  rw [List.rtakeWhile, List.reverse_append,
    List.takeWhile_append_of_pos fun y hy => h y (List.mem_reverse.1 hy),
    List.reverse_append, List.reverse_reverse, List.rtakeWhile]

/-- **The last line of a text has the bytes of the last line.** -/
theorem rtakeWhile_encode (ht : t.StraysHigh) :
    t.encode.rtakeWhile (· != lineFeed) = encode (t.rtakeWhile fun g => !g.is '\n') := by
  induction t using List.reverseRecOn with
  | nil => rfl
  | append_singleton t g ih =>
    rw [encode_append, encode_cons, encode_nil, List.append_nil, List.rtakeWhile_concat]
    cases hg : g.is '\n' with
    | true =>
      rw [Glyph.eq_lineFeed hg]
      exact List.rtakeWhile_concat_neg _ _ _ (by decide)
    | false =>
      have hstray : ∀ b, g = .stray b → 0x80 ≤ b.toNat := fun b hb => ht b (by simp [hb])
      have hbytes : ∀ b ∈ g.bytes, (b != lineFeed) = true := fun b hb =>
        bne_iff_ne.2 fun heq => Glyph.lineFeed_notMem_bytes hg hstray (heq ▸ hb)
      rw [rtakeWhile_append_of_all hbytes, ih fun b hb => ht b (List.mem_append_left _ hb)]
      simp

end Text

/-! ## Places in a file -/

/-- **A position moved over a beginning of a file is faithful.** -/
theorem Position.faithful_after (h : decode bytes = front ++ rest) :
    (start.after front).Faithful bytes := by
  have hoffset : (start.after front).offset = front.encode.length := by
    rw [offset_after, Text.length_encode]
    exact Nat.zero_add _
  have hbytes : bytes = front.encode ++ rest.encode := by
    rw [← Text.encode_append, ← h, Text.encode_decode]
  have htake : bytes.take (start.after front).offset = front.encode := by
    rw [hoffset, hbytes, List.take_left]
  have hdrop : bytes.drop (start.after front).offset = rest.encode := by
    rw [hoffset, hbytes, List.drop_left]
  have hhigh : front.StraysHigh :=
    fun b hb => Text.straysHigh_decode bytes b (h ▸ List.mem_append_left _ hb)
  -- a text that stands in the file is read again from its bytes
  have hslice : ∀ {p t q : Text}, decode bytes = p ++ (t ++ q) → decode t.encode = t := fun h =>
    Text.decode_encode_of_decode_append (Text.decode_encode_of_append h)
  constructor
  · rw [hoffset, hbytes, List.length_append]
    exact Nat.le_add_right _ _
  · have hfront : decode bytes = [] ++ (front ++ rest) := h
    rw [htake, hdrop, Text.decode_encode_of_append h, hslice hfront, h]
  · rw [htake, Text.count_encode hhigh, line_after]
    rfl
  · obtain ⟨before, hbefore⟩ := List.rtakeWhile_suffix (fun g : Glyph => !g.is '\n') front
    have hlast : decode bytes = before ++ (front.rtakeWhile (fun g => !g.is '\n') ++ rest) := by
      rw [h, ← List.append_assoc, hbefore]
    rw [htake, Text.rtakeWhile_encode hhigh, hslice hlast, character_after_start]

namespace TokenStream

/-- The text of a token stands in the source between the two places of the token. -/
structure Stands (source : Text) (t : Token) (front behind : Text) : Prop where
  /-- The source is cut by the token. -/
  source : source = front ++ (t.text ++ behind)
  /-- It starts behind what comes before it. -/
  start : t.start = Position.start.after front
  /-- It stops behind its text. -/
  stop : t.stop = Position.start.after (front ++ t.text)

/-- **Every token of a cover stands where it says**, if the cover starts behind the text
`front`. -/
theorem Covers.stands {here : Position} {source : Text} {s : TokenStream}
    (h : Covers here rest s)
    (hsource : source = front ++ rest) (hhere : here = Position.start.after front)
    {t : Token} (ht : t ∈ s.all) :
    ∃ before behind, Stands source t before behind := by
  induction h generalizing front with
  | @gap here gap newline hgap =>
    obtain rfl := List.mem_singleton.1 ht
    refine ⟨front ++ gap, [], by simp [hsource, atEnd], ?_, ?_⟩
    · rw [Position.after_append, ← hhere]; rfl
    · rw [Position.after_append, Position.after_append, ← hhere]; rfl
  | @comment here rest newline =>
    obtain rfl := List.mem_singleton.1 ht
    refine ⟨front ++ rest, [], by simp [hsource, atEnd], ?_, ?_⟩
    · rw [Position.after_append, ← hhere]; rfl
    · rw [Position.after_append, Position.after_append, ← hhere]; rfl
  | @literal here gap text more newline fault hgap hne =>
    obtain rfl := List.mem_singleton.1 ht
    refine ⟨front ++ gap, more, by simp [hsource], ?_, ?_⟩
    · rw [Position.after_append, ← hhere]; rfl
    · rw [Position.after_append, Position.after_append, ← hhere]; rfl
  | @token here gap more u s hgap hne he hi hstart hstop h ih =>
    -- The next token counts from where this one stops.
    have hbehind : u.stop = Position.start.after (front ++ gap ++ u.text) := by
      rw [Position.after_append, Position.after_append, ← hhere, hstop]
    rcases List.mem_cons.1 ht with rfl | ht
    · refine ⟨front ++ gap, more, by simp [hsource], ?_, hbehind⟩
      rw [Position.after_append, ← hhere, hstart]
    · exact ih (by simp [hsource]) hbehind ht

/-- **Positions are faithful.** Whatever the bytes of a file are, both places of every token of
it, the last one included, are what the bytes in front of them say. The token's text stands in
the file from the one place to the other: what was read before it, and with it, is as long as
the two offsets. -/
theorem faithful_lex (bytes : List UInt8) (t : Token) (ht : t ∈ (lex (decode bytes)).all) :
    t.start.Faithful bytes ∧ t.stop.Faithful bytes ∧
      ∃ front behind : Text, decode bytes = front ++ (t.text ++ behind) ∧
        t.start.offset = front.encode.length ∧
        t.stop.offset = (front ++ t.text).encode.length := by
  obtain ⟨front, behind, hsource, hstart, hstop⟩ :=
    (covers_lexFrom none .start (decode bytes)).stands (List.nil_append _).symm rfl ht
  have hlength : ∀ u : Text, (Position.start.after u).offset = u.encode.length := fun u => by
    rw [Position.offset_after, Text.length_encode]
    exact Nat.zero_add _
  refine ⟨?_, ?_, front, behind, hsource, ?_, ?_⟩
  · rw [hstart]
    exact Position.faithful_after hsource
  · rw [hstop]
    exact Position.faithful_after (hsource.trans (List.append_assoc _ _ _).symm)
  · rw [hstart, hlength]
  · rw [hstop, hlength]

/-- A comment over two lines, then a string of a character of two bytes and a byte that is none,
then a word: `/*⏎*/'é\xff' x`. Seven characters stand before the word on its line, and eleven
bytes in the file. -/
theorem faithful_lex_stray :
    Position.Faithful
    [0x2f, 0x2a, 0x0a, 0x2a, 0x2f, 0x27, 0xc3, 0xa9, 0xff, 0x27, 0x20, 0x78] ⟨2, 7, 11⟩ ∧
      Position.Faithful [0x2f, 0x2a, 0x0a, 0x2a, 0x2f, 0x27, 0xc3, 0xa9, 0xff, 0x27, 0x20, 0x78]
      ⟨2, 8, 12⟩ := by
  have h := faithful_lex [0x2f, 0x2a, 0x0a, 0x2a, 0x2f, 0x27, 0xc3, 0xa9, 0xff, 0x27, 0x20, 0x78]
    ⟨.ident, [.char 'x'], ⟨⟨2, 7, 11⟩, ⟨2, 8, 12⟩⟩, false⟩ (by decide +kernel)
  exact ⟨h.1, h.2.1⟩

end TokenStream

end Exemplar
