import Exemplar.Proofs.Text.Decoding

/-!
# Pieces of a file read again

The bytes of a character are read as this character wherever they stand. A stray byte is one
because of the bytes behind it, so it may not stay one if these are others. Yet a piece of a
file is read again as it was in the file if no byte comes behind it that could stand inside an
encoding: what the bytes at its end were waiting for does not come there either.

An encoding has one to four bytes, and its first byte tells which. So the four functions that
read an encoding of a given length have to be shown not to answer where another one does; all of
it is about the ranges in which the bytes lie.

For a piece of a file there are three steps. Reading does not look back, so what comes before
the piece does not matter (`decode_encode_of_append`). If the piece were read otherwise without
the bytes behind it, then because a stray byte became a character. But a byte that is read as a
character is so with more bytes behind it too (`decode_encode_of_decode_append`). And other
bytes may come behind it if the first of them stands inside no encoding (`decode_slice_append`).
-/

namespace Exemplar.Text

variable {a b d e : UInt8} {c : Char} {xs ys bytes : List UInt8} {n : Nat} {p q t : Text}

/-! ## Characters

The cases of the encoding, from one byte to four. -/

/-- A byte in the lower half stands for itself. -/
theorem leading?_of_lt (h : a < 0x80) (xs : List UInt8) :
    leading? a xs = some (Char.ofNat a.toNat, 0) := by
  unfold leading?
  exact if_pos h

/-- Two bytes that are a character are read as it. The first is in the upper half. -/
theorem leading?_of_twoBytes? (h : twoBytes? a b = some c) (xs : List UInt8) :
    leading? a (b :: xs) = some (c, 1) := by
  have ha : ¬a < 0x80 := by
    simp only [twoBytes?, Option.ite_none_right_eq_some, Bool.and_eq_true, decide_eq_true_eq,
      UInt8.le_iff_toNat_le] at h
    rw [UInt8.lt_iff_toNat_lt]
    have hle : 0xC2 ≤ a.toNat := h.1.1.1
    show ¬a.toNat < 0x80
    omega
  unfold leading?
  rw [if_neg ha]
  rcases xs with _ | ⟨y, _ | ⟨z, xs⟩⟩ <;> simp [h]

/-- Three bytes that are a character are read as it. The first is too large for two bytes. -/
theorem leading?_of_threeBytes? (h : threeBytes? a b d = some c) (xs : List UInt8) :
    leading? a (b :: d :: xs) = some (c, 2) := by
  have hle : 0xE0 ≤ a.toNat := by
    simp only [threeBytes?, Option.ite_none_right_eq_some, Bool.and_eq_true, decide_eq_true_eq,
      UInt8.le_iff_toNat_le] at h
    exact h.1.1.1.1.1.1
  have ha : ¬a < 0x80 := by
    rw [UInt8.lt_iff_toNat_lt]
    show ¬a.toNat < 0x80
    omega
  have htwo : twoBytes? a b = none := by
    refine if_neg fun h => ?_
    simp only [Bool.and_eq_true, decide_eq_true_eq, UInt8.le_iff_toNat_le] at h
    have hge : a.toNat ≤ 0xDF := h.1.2
    omega
  unfold leading?
  rw [if_neg ha]
  rcases xs with _ | ⟨z, xs⟩ <;> simp [h, htwo]

/-- Four bytes that are a character are read as it. The first is too large for two or three. -/
theorem leading?_of_fourBytes? (h : fourBytes? a b d e = some c) (xs : List UInt8) :
    leading? a (b :: d :: e :: xs) = some (c, 3) := by
  have hle : 0xF0 ≤ a.toNat := by
    simp only [fourBytes?, Option.ite_none_right_eq_some, Bool.and_eq_true, decide_eq_true_eq,
      UInt8.le_iff_toNat_le] at h
    exact h.1.1.1.1.1.1.1
  have ha : ¬a < 0x80 := by
    rw [UInt8.lt_iff_toNat_lt]
    show ¬a.toNat < 0x80
    omega
  have htwo : twoBytes? a b = none := by
    refine if_neg fun h => ?_
    simp only [Bool.and_eq_true, decide_eq_true_eq, UInt8.le_iff_toNat_le] at h
    have hge : a.toNat ≤ 0xDF := h.1.2
    omega
  have hthree : threeBytes? a b d = none := by
    refine if_neg fun h => ?_
    simp only [Bool.and_eq_true, decide_eq_true_eq, UInt8.le_iff_toNat_le] at h
    have hge : a.toNat ≤ 0xEF := h.1.1.1.1.2
    omega
  unfold leading?
  rw [if_neg ha]
  simp [h, htwo, hthree]

/-- A character is read from its bytes, whatever comes behind them. Which of the four cases it
is does not depend on the bytes behind. -/
theorem leading?_take (h : leading? a xs = some (c, n)) (ys : List UInt8) :
    leading? a (xs.take n ++ ys) = some (c, n) := by
  unfold leading? at h
  split at h
  · cases h
    exact leading?_of_lt (by assumption) _
  · split
      at h <;> simp only [Option.orElse_eq_orElse, Option.orElse_eq_or, Option.or_eq_some_iff,
      Option.map_eq_some_iff, Prod.mk.injEq, reduceCtorEq] at h
    · obtain ⟨_, h, rfl, rfl⟩ | ⟨-, ⟨_, h, rfl, rfl⟩ | ⟨-, _, h, rfl, rfl⟩⟩ := h
      · exact leading?_of_twoBytes? h _
      · exact leading?_of_threeBytes? h _
      · exact leading?_of_fourBytes? h _
    · obtain ⟨_, h, rfl, rfl⟩ | ⟨-, _, h, rfl, rfl⟩ := h
      · exact leading?_of_twoBytes? h _
      · exact leading?_of_threeBytes? h _
    · obtain ⟨_, h, rfl, rfl⟩ := h
      exact leading?_of_twoBytes? h _

/-- **The bytes of a character are read as the character**, whatever comes behind them. The
encoding is chosen by the number of the character, and each of the four is read back. -/
theorem leading?_bytes (c : Char) (ys : List UInt8) :
    ∃ b rest, String.utf8EncodeChar c = b :: rest ∧
    leading? b (rest ++ ys) = some (c, rest.length) := by
  have hvalid : c.val.toNat.isValidChar := c.valid
  have hc : Char.ofNat c.val.toNat = c := Char.ofNat_toNat c
  unfold String.utf8EncodeChar
  generalize hv : c.val.toNat = v at hvalid hc ⊢
  dsimp only
  unfold Nat.isValidChar at hvalid
  -- There is a case for each length of the encoding.
  split
  · refine ⟨_, [], rfl, ?_⟩
    rw [leading?_of_lt (by rw [UInt8.lt_iff_toNat_lt]; simp; omega)]
    simp only [List.length_nil, Option.some.injEq, Prod.mk.injEq, and_true]
    rw [← hc]
    congr 1
    simp; omega
  split
  · refine ⟨_, _, rfl, leading?_of_twoBytes? ?_ _⟩
    rw [twoBytes?, if_pos (by simp [isTail_iff, UInt8.le_iff_toNat_le]; omega)]
    rw [← hc]
    congr 2
    simp [tailBits]; omega
  split
  · refine ⟨_, _, rfl, leading?_of_threeBytes? ?_ _⟩
    rw [threeBytes?,
      if_pos (by simp [isTail_iff, UInt8.le_iff_toNat_le, ← UInt8.toNat_inj]; omega)]
    rw [← hc]
    congr 2
    simp [tailBits]; omega
  · refine ⟨_, _, rfl, leading?_of_fourBytes? ?_ _⟩
    rw [fourBytes?,
      if_pos (by simp [isTail_iff, UInt8.le_iff_toNat_le, ← UInt8.toNat_inj]; omega)]
    rw [← hc]
    congr 2
    simp [tailBits]; omega

/-- Passing over some bytes and reading is reading what is behind them. -/
theorem decodeFrom_eq (n : Nat) (xs : List UInt8) : decodeFrom n xs = decode (xs.drop n) := by
  induction xs generalizing n with
  | nil => rw [List.drop_nil]; rfl
  | cons a xs ih =>
    cases n with
    | zero => rfl
    | succ n => exact ih n

/-- A character in front is read, and then the rest. -/
theorem decode_char_append (c : Char) (ys : List UInt8) :
    decode ((Glyph.char c).bytes ++ ys) = .char c :: decode ys := by
  obtain ⟨b, rest, hb, hl⟩ := leading?_bytes c ys
  rw [Glyph.bytes, hb, List.cons_append, decode, decodeFrom, hl]
  show Glyph.char c :: decodeFrom rest.length (rest ++ ys) = _
  rw [decodeFrom_eq, List.drop_left]

/-- A string in front is read, and then the rest. -/
theorem decode_ofString_append (s : String) (ys : List UInt8) :
    decode ((ofString s).encode ++ ys) = ofString s ++ decode ys := by
  rw [ofString]
  induction s.toList with
  | nil => rfl
  | cons c l ih =>
    rw [List.map_cons, encode_cons, List.append_assoc, decode_char_append, ih, List.cons_append]

/-- The bytes of a string are read as this string. Nothing comes behind them here. -/
theorem decode_encode_ofString (s : String) : decode (ofString s).encode = ofString s := by
  have h := decode_ofString_append s []
  rw [List.append_nil] at h
  exact h.trans (List.append_nil _)

/-! ## Pieces

A text that was read from a file, with its stray bytes, is written as the bytes it was read
from. Is a piece of it read as that piece? -/

/-- Reading does not remember what came before. A glyph that has been read is off the list of
bytes, and the rest is read as if it were the whole. -/
theorem decode_encode_of_append (h : decode bytes = p ++ q) : decode q.encode = q := by
  induction p generalizing bytes with
  | nil =>
    obtain rfl : decode bytes = q := h
    rw [encode_decode]
  | cons g p ih =>
    cases bytes with
    | nil => cases h
    | cons b xs =>
      rw [decode, decodeFrom] at h
      cases hl : leading? b xs with
      | none => rw [hl] at h; exact ih (List.cons.inj h).2
      | some r =>
        rw [hl] at h
        have htail : decodeFrom r.2 xs = p ++ q := (List.cons.inj h).2
        rw [decodeFrom_eq] at htail
        exact ih htail

/-- What is read again with something behind it is read again alone. A stray byte is the
critical case. It is stray in front of all that follows it in the file, and would have to start
an encoding in front of less. -/
theorem decode_encode_of_decode_append (h : decode (t ++ q).encode = t ++ q) :
    decode t.encode = t := by
  induction t with
  | nil => rfl
  | cons g t ih =>
    rw [List.cons_append, encode_cons] at h
    cases g with
    | char c =>
      rw [decode_char_append] at h
      rw [encode_cons, decode_char_append, ih (List.cons.inj h).2]
    | stray b =>
      rw [Glyph.bytes, List.singleton_append, decode, decodeFrom] at h
      have hnone : leading? b (encode (t ++ q)) = none := by
        cases hl : leading? b (encode (t ++ q)) with
        | none => rfl
        | some r => rw [hl] at h; cases (List.cons.inj h).1
      have hnone' : leading? b (encode t) = none := by
        -- bytes that are read as a character are so with more bytes behind them
        cases hl : leading? b (encode t) with
        | none => rfl
        | some r =>
          have hmore := leading?_take hl ((encode t).drop r.2 ++ encode q)
          rw [← List.append_assoc, List.take_append_drop, ← encode_append, hnone] at hmore
          cases hmore
      rw [hnone] at h
      have hrest : decode (encode (t ++ q)) = t ++ q := (List.cons.inj h).2
      rw [encode_cons, Glyph.bytes, List.singleton_append, decode, decodeFrom, hnone']
      exact congrArg (Glyph.stray b :: ·) (ih hrest)

/-- **A piece of a file is read again** in front of whatever does not go on with an encoding.
That the reading can be cut in front of such a byte is shown in `Decoding`. It remains that the
piece alone is read as it was, which are the two lemmas before. -/
theorem decode_slice_append (h : decode bytes = p ++ (t ++ q))
    (hys : ∀ b ∈ ys.head?, isTail b = false) :
    decode (t.encode ++ ys) = t ++ decode ys := by
  have ht : decode t.encode = t := decode_encode_of_decode_append (decode_encode_of_append h)
  cases ys with
  | nil => rw [List.append_nil, ht]; exact (List.append_nil t).symm
  | cons b ys =>
    have hcut : decodeFrom 0 (t.encode ++ b :: ys)
        = decodeFrom 0 t.encode ++ decodeFrom 0 (b :: ys) :=
      decodeFrom_append (hys b rfl) (Nat.zero_le _)
    exact hcut.trans (congrArg (· ++ _) ht)

/-- No encoding starts with a byte that stands inside one. Such bytes lie between those that
stand for themselves and those that start an encoding. -/
theorem leading?_of_isTail (h : isTail b = true) (xs : List UInt8) : leading? b xs = none := by
  obtain ⟨hle, hge⟩ := isTail_iff.1 h
  have hlt : ¬b < 0x80 := by
    rw [UInt8.lt_iff_toNat_lt]
    show ¬b.toNat < 0x80
    omega
  have hbound : ∀ {k : UInt8}, 0xC0 ≤ k.toNat → decide (k ≤ b) = false := fun hk => by
    rw [decide_eq_false_iff_not, UInt8.le_iff_toNat_le]
    omega
  have htwo : ∀ x, twoBytes? b x = none := fun x => by
    rw [twoBytes?, hbound (by decide : 0xC0 ≤ (0xC2 : UInt8).toNat)]
    rfl
  have hthree : ∀ x y, threeBytes? b x y = none := fun x y => by
    rw [threeBytes?, hbound (by decide : 0xC0 ≤ (0xE0 : UInt8).toNat)]
    rfl
  have hfour : ∀ x y z, fourBytes? b x y z = none := fun x y z => by
    rw [fourBytes?, hbound (by decide : 0xC0 ≤ (0xF0 : UInt8).toNat)]
    rfl
  unfold leading?
  rw [if_neg hlt]
  rcases xs with _ | ⟨x, _ | ⟨y, _ | ⟨z, xs⟩⟩⟩ <;> simp [htwo, hthree, hfour]

/-- **The encoding of a character starts with a byte that starts anew.** -/
theorem isTail_head_bytes (c : Char) : ∀ b ∈ (Glyph.char c).bytes.head?, isTail b = false := by
  intro b hb
  obtain ⟨b', rest, hbytes, hl⟩ := leading?_bytes c []
  rw [Glyph.bytes, hbytes] at hb
  obtain rfl := Option.some.inj hb
  refine Bool.eq_false_iff.2 fun ht => ?_
  rw [leading?_of_isTail ht] at hl
  cases hl

end Exemplar.Text
