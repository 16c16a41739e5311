import Exemplar.Proofs.Text.Decoding
import Exemplar.Text.Quoted
import Mathlib.Algebra.Group.Nat.Defs

/-!
# Quoted text is read back

Between the quotes of a quoted text stands one piece for each glyph, and a piece tells by its
first two characters where it ends: a backslash with the letter of a code point is followed by a
fixed number of digits, any other backslash takes one character with it, and whatever else
stands there stands for itself. So the glyphs can be read off one after the other
(`readGlyph?`), and two texts with the same quoted form are the same text.

Only one confusion has to be ruled out. A stray byte is shown in two digits, and so are most
control characters of ASCII. But no stray byte is an ASCII byte, for these are characters
wherever they stand in a file.
-/

namespace Exemplar.Text

variable {n width : Nat} {c : Char} {rest : List Char} {s t : Text}

/-! ## Digits

A number is written with leading zeros in a fixed number of digits, the first of which is the
quotient by a power of sixteen. -/

/-- The first digit, and the others. -/
theorem hexDigits_succ (width n : Nat) :
    hexDigits (width + 1) n = hexDigit (n / 16 ^ width) :: hexDigits width n := rfl

/-- There are as many digits as asked for. -/
theorem length_hexDigits (width n : Nat) : (hexDigits width n).length = width := by
  induction width with
  | zero => rfl
  | succ width ih => rw [hexDigits_succ, List.length_cons, ih]

/-- A digit stands for its value. -/
theorem digitValue_hexDigit (n : Nat) : digitValue (hexDigit n) = n % 16 := by
  have key : ∀ d < 16, digitValue (Nat.digitChar d) = d := by decide
  exact key _ (Nat.mod_lt _ (by decide))

/-- **Digits stand for the number they were written for**, as far as they reach. -/
theorem numeral_hexDigits (width n : Nat) : numeral 16 (hexDigits width n) = n % 16 ^ width := by
  have key : ∀ start, (hexDigits width n).foldl (fun m d => m * 16 + digitValue d) start =
      start * 16 ^ width + n % 16 ^ width := by
    induction width with
    | zero =>
      intro start
      show start = start * 1 + n % 1
      rw [Nat.mul_one, Nat.mod_one, Nat.add_zero]
    | succ width ih =>
      intro start
      have hsplit : n % 16 ^ (width + 1)
          = n / 16 ^ width % 16 * 16 ^ width + n % 16 ^ width := by
        rw [Nat.pow_succ, Nat.mod_mul, Nat.mul_comm, Nat.add_comm]
      rw [hexDigits_succ, List.foldl_cons, ih, digitValue_hexDigit, hsplit, Nat.pow_succ,
        Nat.add_mul, Nat.mul_assoc, Nat.mul_comm 16, Nat.add_assoc]
  have h := key 0
  rwa [Nat.zero_mul, Nat.zero_add] at h

/-! ## Pieces

For each way of writing a glyph there is one of reading it. The reader does not know which was
taken, but the first two characters tell. -/

/-- The control character that has the given letter for its escape. -/
def controlOf? (letter : Char) : Option Char :=
  if letter == 'a' then some '\x07'
  else if letter == 'b' then some '\x08'
  else if letter == 't' then some '\t'
  else if letter == 'n' then some '\n'
  else if letter == 'v' then some '\x0b'
  else if letter == 'f' then some '\x0c'
  else if letter == 'r' then some '\r'
  else none

/-- The glyph that is shown by a number in two digits. -/
def glyphOfByte (n : Nat) : Glyph :=
  if n < 0x80 then .char (Char.ofNat n) else .stray (UInt8.ofNat n)

/-- Reads the glyph at the beginning of what stands between quotes, and answers what stands
behind it. -/
def readGlyph? : List Char → Option (Glyph × List Char)
  | [] => none
  | [c] => some (.char c, [])
  | c :: d :: rest =>
    if c != '\\' then some (.char c, d :: rest)
    else if d == 'x' then some (glyphOfByte (numeral 16 (rest.take 2)), rest.drop 2)
    else if d == 'u' then some (.char (Char.ofNat (numeral 16 (rest.take 4))), rest.drop 4)
    else if d == 'U' then some (.char (Char.ofNat (numeral 16 (rest.take 8))), rest.drop 8)
    else some (.char ((controlOf? d).getD d), rest)

/-- A character other than a backslash stands for itself. -/
theorem readGlyph?_of_ne (h : c ≠ '\\') (rest : List Char) :
    readGlyph? (c :: rest) = some (.char c, rest) := by
  cases rest with
  | nil => rfl
  | cons d rest => simp [readGlyph?, h]

/-- Behind a backslash, a character that announces no digits stands for itself or for a control
character. -/
theorem readGlyph?_escape {d : Char} (h : d ∉ ['x', 'u', 'U']) (rest : List Char) :
    readGlyph? ('\\' :: d :: rest) = some (.char ((controlOf? d).getD d), rest) := by
  simp only [List.mem_cons, List.not_mem_nil, or_false, not_or] at h
  simp [readGlyph?, h]

/-- A number in two digits is read as the glyph it shows. -/
theorem readGlyph?_two (h : n < 0x100) (rest : List Char) :
    readGlyph? ('\\' :: 'x' :: hexDigits 2 n ++ rest) = some (glyphOfByte n, rest) := by
  show some (glyphOfByte (numeral 16 ((hexDigits 2 n ++ rest).take 2)),
    (hexDigits 2 n ++ rest).drop 2) = _
  rw [List.take_left' (length_hexDigits 2 n),
    List.drop_left' (length_hexDigits 2 n), numeral_hexDigits,
    Nat.mod_eq_of_lt (show n < 16 ^ 2 from h)]

/-- So is a code point in four digits. -/
theorem readGlyph?_four (h : c.toNat < 0x10000) (rest : List Char) :
    readGlyph? ('\\' :: 'u' :: hexDigits 4 c.toNat ++ rest) = some (.char c, rest) := by
  show some (Glyph.char (Char.ofNat (numeral 16 ((hexDigits 4 c.toNat ++ rest).take 4))),
    (hexDigits 4 c.toNat ++ rest).drop 4) = _
  rw [List.take_left' (length_hexDigits 4 _),
    List.drop_left' (length_hexDigits 4 _), numeral_hexDigits,
    Nat.mod_eq_of_lt (show c.toNat < 16 ^ 4 from h), Char.ofNat_toNat]

/-- Eight digits are enough for every code point. -/
theorem readGlyph?_eight (c : Char) (rest : List Char) :
    readGlyph? ('\\' :: 'U' :: hexDigits 8 c.toNat ++ rest) = some (.char c, rest) := by
  have hvalid : c.toNat.isValidChar := c.valid
  have hlt : c.toNat < 16 ^ 8 := by unfold Nat.isValidChar at hvalid; omega
  show some (Glyph.char (Char.ofNat (numeral 16 ((hexDigits 8 c.toNat ++ rest).take 8))),
    (hexDigits 8 c.toNat ++ rest).drop 8) = _
  rw [List.take_left' (length_hexDigits 8 _),
    List.drop_left' (length_hexDigits 8 _), numeral_hexDigits,
    Nat.mod_eq_of_lt hlt, Char.ofNat_toNat]

/-- The letter of a control character announces no digits and leads back to the character. -/
theorem controlOf?_of_controlLetter? {letter : Char} (h : controlLetter? c = some letter) :
    letter ∉ ['x', 'u', 'U'] ∧ controlOf? letter = some c := by
  have key : ∀ m < 14, (controlLetter? (Char.ofNat m)).all (fun l =>
      decide (l ∉ ['x', 'u', 'U']) && controlOf? l == some (Char.ofNat m)) = true := by decide
  have hlt : c.toNat < 14 := by
    unfold controlLetter? at h
    split at h <;> first | omega | cases h
  have hc := key c.toNat hlt
  rw [Char.ofNat_toNat, h] at hc
  simpa using hc

/-- **A character is read back from its piece**, whatever stands behind it. -/
theorem readGlyph?_quoteChar (c : Char) (rest : List Char) :
    readGlyph? (quoteChar c ++ rest) = some (.char c, rest) := by
  unfold quoteChar
  -- In the order in which they are tried: a quote or a backslash, what is printed as it is, a
  -- letter, and digits.
  split
  · rename_i hquote
    have hc : c = '"' ∨ c = '\\' := by simpa using hquote
    obtain rfl | rfl := hc
    · exact readGlyph?_escape (by decide) rest
    · exact readGlyph?_escape (by decide) rest
  rename_i hquote
  have hc : c ≠ '\\' := by rintro rfl; exact hquote rfl
  split
  · exact readGlyph?_of_ne hc rest
  split
  · rename_i letter hletter
    obtain ⟨hdigits, hcontrol⟩ := controlOf?_of_controlLetter? hletter
    show readGlyph? ('\\' :: letter :: rest) = _
    rw [readGlyph?_escape hdigits, hcontrol]
    rfl
  split
  · rename_i hascii
    rw [readGlyph?_two (Nat.lt_trans hascii (by decide)), glyphOfByte,
      if_pos hascii, Char.ofNat_toNat]
  split
  · exact readGlyph?_four (by assumption) rest
  · exact readGlyph?_eight c rest

/-! ## Texts

The pieces stand one behind the other between the quotes, so the first glyph can be read and the
rest is the rest of the pieces. If one text were longer, a glyph would be read from nothing. -/

/-- The stray bytes of a text are no ASCII bytes. -/
def StraysHigh (t : Text) : Prop := ∀ b, Glyph.stray b ∈ t → 0x80 ≤ b.toNat

/-- **Reading a file makes no stray byte of an ASCII byte.** -/
theorem straysHigh_decode (bytes : List UInt8) : (decode bytes).StraysHigh := by
  have key : ∀ skip, (decodeFrom skip bytes).StraysHigh := by
    induction bytes with
    | nil => exact fun _ _ h => absurd h List.not_mem_nil
    | cons a bytes ih =>
      intro skip
      cases skip with
      | succ k => exact ih k
      | zero =>
        intro b hb
        rw [decodeFrom] at hb
        split at hb
        · exact ih _ b (List.mem_of_ne_of_mem (by simp) hb)
        · rename_i hnone
          rcases List.mem_cons.1 hb with heq | hb
          · cases heq
            refine Nat.le_of_not_lt fun hlt => ?_
            unfold leading? at hnone
            rw [if_pos (UInt8.lt_iff_toNat_lt.2 hlt)] at hnone
            cases hnone
          · exact ih _ b hb
  exact key 0

theorem readGlyph?_quoteGlyph {g : Glyph}
    (h : ∀ b, g = .stray b → 0x80 ≤ b.toNat) (rest : List Char) :
    readGlyph? (quoteGlyph g ++ rest) = some (g, rest) := by
  cases g with
  | char c => exact readGlyph?_quoteChar c rest
  | stray b =>
    have hread := readGlyph?_two b.toNat_lt rest
    rwa [glyphOfByte, if_neg (Nat.not_lt.2 (h b rfl)), UInt8.ofNat_toNat] at hread

/-- Texts are known by their pieces. -/
theorem eq_of_flatMap_quoteGlyph (hs : s.StraysHigh) (ht : t.StraysHigh)
    (h : s.flatMap quoteGlyph = t.flatMap quoteGlyph) : s = t := by
  have hne : ∀ {g : Glyph} {u : Text}, StraysHigh (g :: u) →
      (g :: u).flatMap quoteGlyph ≠ [] := by
    intro g u hu hnil
    have hread :=
      readGlyph?_quoteGlyph (fun b hb => hu b (hb ▸ List.mem_cons_self)) (u.flatMap quoteGlyph)
    rw [← List.flatMap_cons, hnil] at hread
    cases hread
  -- By induction on the one text; the first glyphs are read from the same characters.
  induction s generalizing t with
  | nil =>
    cases t with
    | nil => rfl
    | cons g t => exact absurd h.symm (hne ht)
  | cons g s ih =>
    cases t with
    | nil => exact absurd h (hne hs)
    | cons g' t =>
      have hread :=
        readGlyph?_quoteGlyph (fun b hb => hs b (hb ▸ List.mem_cons_self)) (s.flatMap quoteGlyph)
      have hread' :=
        readGlyph?_quoteGlyph (fun b hb => ht b (hb ▸ List.mem_cons_self)) (t.flatMap quoteGlyph)
      rw [← List.flatMap_cons, h, List.flatMap_cons, hread', Option.some.injEq, Prod.mk.injEq]
        at hread
      obtain ⟨rfl, hrest⟩ := hread
      rw [ih (fun b hb => hs b (List.mem_cons_of_mem _ hb))
        (fun b hb => ht b (List.mem_cons_of_mem _ hb)) hrest.symm]

/-- **Files with the same quoted text are the same file**, whatever their bytes are. -/
theorem quoted_decode_injective : Function.Injective fun bytes :
    List UInt8 => (decode bytes).quoted := by
  intro a b h
  have hchars : '"' :: (decode a).flatMap quoteGlyph ++ ['"']
      = '"' :: (decode b).flatMap quoteGlyph ++ ['"'] :=
    String.ofList_injective h
  have hpieces := List.append_cancel_right (List.cons.inj hchars).2
  have htexts := eq_of_flatMap_quoteGlyph (straysHigh_decode a) (straysHigh_decode b) hpieces
  rw [← encode_decode a, htexts, encode_decode]

end Exemplar.Text
