import Exemplar.Text.Basic

/-!
# Nothing is lost in decoding

A text is decoded from bytes that need not be well formed. Encoding it again gives these bytes
back, whatever they were: a character stands for its one shortest encoding, and that is the only
one that was accepted for it; a stray byte stands for itself. So every text has its bytes, their
number is the sum of the widths, and a slice of a text is a slice of the bytes.
-/

namespace Exemplar

/-- A glyph has as many bytes as it is wide. -/
theorem Glyph.length_bytes (g : Glyph) : g.bytes.length = g.width := by
  cases g with
  | char c => exact String.length_utf8EncodeChar c
  | stray b => rfl

namespace Text

@[simp] theorem encode_nil : encode [] = [] := rfl

@[simp] theorem encode_cons (g : Glyph) (t : Text) : encode (g :: t) = g.bytes ++ encode t := by
  simp [encode]

@[simp] theorem encode_append (s t : Text) : encode (s ++ t) = encode s ++ encode t := by
  simp [encode]

/-- The byte size of a text is the number of its bytes. A text is as long as what it was decoded
from. -/
theorem length_encode (t : Text) : t.encode.length = t.byteSize := by
  induction t with
  | nil => rfl
  | cons g t ih => simp [Glyph.length_bytes, ih]

/-! ## Characters

The forms of two, three and four bytes are decoded by joining the low bits of their bytes.
Encoding takes the number apart again; that it comes out with as many bytes as it was read from
is because a longer form than needed was not accepted. -/

/-- A code point is found again in its character. -/
theorem val_ofNat {n : Nat} (h : n.isValidChar) : (Char.ofNat n).val.toNat = n := by
  rw [Char.ofNat, dif_pos h]
  rfl

/-- Bytes are compared as numbers. -/
theorem isTail_iff {b : UInt8} : isTail b = true ↔ 0x80 ≤ b.toNat ∧ b.toNat ≤ 0xBF := by
  simp [isTail, UInt8.le_iff_toNat_le]

/-- An ASCII byte is the encoding of its character. -/
theorem bytes_ascii {a : UInt8} (h : a < 0x80) :
    String.utf8EncodeChar (Char.ofNat a.toNat) = [a] := by
  have ha : a.toNat < 0x80 := UInt8.lt_iff_toNat_lt.1 h
  have hv : (Char.ofNat a.toNat).val.toNat = a.toNat := val_ofNat (.inl (by omega))
  have hle : a.toNat ≤ 127 := by omega
  simp [String.utf8EncodeChar, hv, hle]

/-- Two bytes that encode a character are its encoding. -/
theorem bytes_twoBytes? {a b : UInt8} {c : Char} (h : twoBytes? a b = some c) :
    String.utf8EncodeChar c = [a, b] := by
  simp only [twoBytes?, Option.ite_none_right_eq_some, Bool.and_eq_true, decide_eq_true_eq,
    Option.some.injEq, isTail_iff, UInt8.le_iff_toNat_le] at h
  obtain ⟨⟨⟨ha, ha'⟩, hb⟩, rfl⟩ := h
  change 0xC2 ≤ a.toNat at ha
  change a.toNat ≤ 0xDF at ha'
  have hv := val_ofNat (n := (a.toNat - 0xC0) * 0x40 + tailBits b) (.inl (by
    unfold tailBits; omega))
  unfold tailBits at hv ⊢
  rw [String.utf8EncodeChar, hv, if_neg (by omega), if_pos (by omega)]
  congr 1
  · exact UInt8.toNat_inj.1 (by simp; omega)
  · congr 1
    exact UInt8.toNat_inj.1 (by simp; omega)

/-- Three bytes that encode a character are its encoding. Surrogates were not accepted. -/
theorem bytes_threeBytes? {a b d : UInt8} {c : Char} (h : threeBytes? a b d = some c) :
    String.utf8EncodeChar c = [a, b, d] := by
  simp only [threeBytes?, Option.ite_none_right_eq_some, Bool.and_eq_true, Bool.or_eq_true,
    decide_eq_true_eq, bne_iff_ne, Option.some.injEq, isTail_iff, UInt8.le_iff_toNat_le, ne_eq,
    ← UInt8.toNat_inj] at h
  obtain ⟨⟨⟨⟨⟨⟨ha, ha'⟩, hb⟩, hd⟩, hshort⟩, hsurrogate⟩, rfl⟩ := h
  change 0xE0 ≤ a.toNat at ha
  change a.toNat ≤ 0xEF at ha'
  change ¬a.toNat = 0xE0 ∨ 0xA0 ≤ b.toNat at hshort
  change ¬a.toNat = 0xED ∨ b.toNat ≤ 0x9F at hsurrogate
  unfold tailBits
  -- The number is in range: from 0x800 on, below 0x10000, and no surrogate.
  have hvalid :
      ((a.toNat - 0xE0) * 0x1000 + b.toNat % 0x40 * 0x40 + d.toNat % 0x40).isValidChar := by
    unfold Nat.isValidChar; omega
  rw [String.utf8EncodeChar, val_ofNat hvalid, if_neg (by omega), if_neg (by omega),
    if_pos (by omega)]
  congr 1
  · exact UInt8.toNat_inj.1 (by simp; omega)
  congr 1
  · exact UInt8.toNat_inj.1 (by simp; omega)
  congr 1
  exact UInt8.toNat_inj.1 (by simp; omega)

/-- Four bytes that encode a character are its encoding. -/
theorem bytes_fourBytes? {a b d e : UInt8} {c : Char} (h : fourBytes? a b d e = some c) :
    String.utf8EncodeChar c = [a, b, d, e] := by
  simp only [fourBytes?, Option.ite_none_right_eq_some, Bool.and_eq_true, Bool.or_eq_true,
    decide_eq_true_eq, bne_iff_ne, Option.some.injEq, isTail_iff, UInt8.le_iff_toNat_le, ne_eq,
    ← UInt8.toNat_inj] at h
  obtain ⟨⟨⟨⟨⟨⟨⟨ha, ha'⟩, hb⟩, hd⟩, he⟩, hshort⟩, hlast⟩, rfl⟩ := h
  change 0xF0 ≤ a.toNat at ha
  change a.toNat ≤ 0xF4 at ha'
  change ¬a.toNat = 0xF0 ∨ 0x90 ≤ b.toNat at hshort
  change ¬a.toNat = 0xF4 ∨ b.toNat ≤ 0x8F at hlast
  unfold tailBits
  -- The number is in range: from 0x10000 on and below 0x110000.
  have hvalid : ((a.toNat - 0xF0) * 0x40000 + b.toNat % 0x40 * 0x1000 + d.toNat % 0x40 * 0x40
      + e.toNat % 0x40).isValidChar := by
    unfold Nat.isValidChar; omega
  rw [String.utf8EncodeChar, val_ofNat hvalid, if_neg (by omega), if_neg (by omega),
    if_neg (by omega)]
  congr 1
  · exact UInt8.toNat_inj.1 (by simp; omega)
  congr 1
  · exact UInt8.toNat_inj.1 (by simp; omega)
  congr 1
  · exact UInt8.toNat_inj.1 (by simp; omega)
  congr 1
  exact UInt8.toNat_inj.1 (by simp; omega)

/-- **The bytes read as a character are its encoding.** -/
theorem bytes_leading? {b : UInt8} {rest : List UInt8} {c : Char} {n : Nat}
    (h : leading? b rest = some (c, n)) :
    String.utf8EncodeChar c ++ rest.drop n = b :: rest := by
  unfold leading? at h
  split at h
  · cases h
    rw [bytes_ascii (by assumption)]; rfl
  · -- at most one of the forms fits, but which one is not needed: each gives its own bytes
    split
      at h <;> simp only [Option.orElse_eq_orElse, Option.orElse_eq_or, Option.or_eq_some_iff,
      Option.map_eq_some_iff, Prod.mk.injEq, reduceCtorEq] at h
    · obtain ⟨_, h, rfl, rfl⟩ | ⟨-, ⟨_, h, rfl, rfl⟩ | ⟨-, _, h, rfl, rfl⟩⟩ := h
      · rw [bytes_twoBytes? h]; rfl
      · rw [bytes_threeBytes? h]; rfl
      · rw [bytes_fourBytes? h]; rfl
    · obtain ⟨_, h, rfl, rfl⟩ | ⟨-, _, h, rfl, rfl⟩ := h
      · rw [bytes_twoBytes? h]; rfl
      · rw [bytes_threeBytes? h]; rfl
    · obtain ⟨_, h, rfl, rfl⟩ := h
      rw [bytes_twoBytes? h]; rfl

/-! ## Texts

Decoding reads a character at its first byte and skips the others. -/

/-- The bytes that are still to be skipped belong to a character that has been read. By
induction on the bytes: a byte that is skipped has been counted, and one that is not starts a
character or stands for itself. -/
theorem encode_decodeFrom (skip : Nat) (bytes : List UInt8) :
    encode (decodeFrom skip bytes) = bytes.drop skip := by
  induction bytes generalizing skip with
  | nil => simp [decodeFrom]
  | cons b rest ih =>
    cases skip with
    | succ k => exact ih k
    | zero =>
      rw [decodeFrom]
      split
      · rename_i c n h
        rw [encode_cons, ih]
        exact bytes_leading? h
      · rw [encode_cons, ih]; rfl

/-- **Encoding what was decoded gives the bytes back.** -/
@[simp] theorem encode_decode (bytes : List UInt8) : encode (decode bytes) = bytes :=
  encode_decodeFrom 0 bytes

/-! ## A byte that starts anew

A byte below 0x80 is a character by itself, and part of no other. So what stands in front of it
and what stands behind it do not depend on each other. -/

variable {a b : UInt8} {xs ys : List UInt8}

/-- An ASCII byte is no tail. -/
theorem isTail_eq_false_of_lt (hb : b < 0x80) : isTail b = false := by
  rw [Bool.eq_false_iff]
  intro h
  have hle := (isTail_iff.1 h).1
  have hlt : b.toNat < 0x80 := UInt8.lt_iff_toNat_lt.1 hb
  omega

/-- No encoding goes on with a byte that is no tail, so a character is read alike whether one
comes behind it or nothing. -/
theorem leading?_append (ht : isTail b = false) :
    leading? a (xs ++ b :: ys) = leading? a xs := by
  have h₂ : ∀ a, twoBytes? a b = none := fun a => by simp [twoBytes?, ht]
  have h₃ : ∀ a x y, x = b ∨ y = b → threeBytes? a x y = none := by
    rintro a x y (rfl | rfl) <;> simp [threeBytes?, ht]
  have h₄ : ∀ a x y z, x = b ∨ y = b ∨ z = b → fourBytes? a x y z = none := by
    rintro a x y z (rfl | rfl | rfl) <;> simp [fourBytes?, ht]
  unfold leading?
  split
  · rfl
  · rcases xs with _ | ⟨x, _ | ⟨y, _ | ⟨z, xs⟩⟩⟩
    · rcases ys with _ | ⟨u, _ | ⟨v, ys⟩⟩ <;> simp [h₂, h₃, h₄]
    · rcases ys with _ | ⟨u, ys⟩ <;> simp [h₃, h₄]
    · simp [h₄]
    · rfl

/-- A character is read from bytes that are there. -/
theorem le_of_leading? {c : Char} {n : Nat} (h : leading? a xs = some (c, n)) :
    n ≤ xs.length := by
  unfold leading? at h
  split at h
  · cases h
    exact Nat.zero_le _
  · split
      at h <;> simp only [Option.orElse_eq_orElse, Option.orElse_eq_or, Option.or_eq_some_iff,
      Option.map_eq_some_iff, Prod.mk.injEq, reduceCtorEq] at h
    · obtain ⟨_, -, -, rfl⟩ | ⟨-, ⟨_, -, -, rfl⟩ | ⟨-, _, -, -, rfl⟩⟩ := h <;> simp
    · obtain ⟨_, -, -, rfl⟩ | ⟨-, _, -, -, rfl⟩ := h <;> simp
    · obtain ⟨_, -, -, rfl⟩ := h
      simp

/-- Decoding comes to such a byte with nothing left to skip, since every character in front of
it has its bytes there. -/
theorem decodeFrom_append (hb : isTail b = false) {skip : Nat} (hs : skip ≤ xs.length) :
    decodeFrom skip (xs ++ b :: ys) = decodeFrom skip xs ++ decodeFrom 0 (b :: ys) := by
  induction xs generalizing skip with
  | nil =>
    obtain rfl : skip = 0 := Nat.le_zero.1 hs
    rfl
  | cons a xs ih =>
    cases skip with
    | succ k => exact ih (Nat.le_of_succ_le_succ hs)
    | zero =>
      rw [List.cons_append, decodeFrom, decodeFrom, leading?_append hb]
      cases h : leading? a xs with
      | none => exact congrArg (Glyph.stray a :: ·) (ih (Nat.zero_le _))
      | some r =>
        obtain ⟨c, n⟩ := r
        exact congrArg (Glyph.char c :: ·) (ih (le_of_leading? h))

/-- **What comes before an ASCII byte and what comes behind it are decoded by themselves.** -/
theorem decode_append (hb : b < 0x80) (xs ys : List UInt8) :
    decode (xs ++ b :: ys) = decode xs ++ .char (Char.ofNat b.toNat) :: decode ys := by
  have hl : leading? b ys = some (Char.ofNat b.toNat, 0) := by
    unfold leading?
    exact if_pos hb
  rw [decode, decodeFrom_append (isTail_eq_false_of_lt hb) (Nat.zero_le _), decodeFrom, hl]
  rfl

end Text

end Exemplar
