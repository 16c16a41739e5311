import Exemplar.Proofs.Token.Words

/-!
# Quoted text as a literal

A text in double quotes is one string literal, whatever the text is. What stands between the
quotes is a sequence of plain characters and of escapes, each a backslash with a character
behind it (`LiteralBody`), and the scan for the closing quote passes over such a sequence
without stopping.
-/

namespace Exemplar

/-- What may stand between the quotes of a literal. -/
inductive LiteralBody : List Char → Prop
  /-- Nothing. -/
  | nil : LiteralBody []
  /-- A character that means nothing to the scan. -/
  | plain {c : Char} {cs : List Char} (h : c ∉ ['"', '\n', '\\']) (hs : LiteralBody cs) :
      LiteralBody (c :: cs)
  /-- A backslash and the character behind it, whatever it is. -/
  | escape {c : Char} {cs : List Char} (hs : LiteralBody cs) : LiteralBody ('\\' :: c :: cs)

namespace LiteralBody

theorem append {s t : List Char} (hs : LiteralBody s) (ht : LiteralBody t) :
    LiteralBody (s ++ t) := by
  induction hs with
  | nil => exact ht
  | plain h _ ih => exact .plain h ih
  | escape _ ih => exact .escape ih

/-- Digits mean nothing to the scan. -/
theorem hexDigits (width n : Nat) : LiteralBody (Text.hexDigits width n) := by
  have key : ∀ d < 16, Nat.digitChar d ∉ ['"', '\n', '\\'] := by decide
  induction width with
  | zero => exact .nil
  | succ width ih => exact .plain (key _ (Nat.mod_lt _ (by decide))) ih

/-- A character inside quotes is escaped wherever it would mean something to the scan. -/
theorem quoteChar (c : Char) : LiteralBody (Text.quoteChar c) := by
  unfold Text.quoteChar
  split
  · exact .escape .nil
  · rename_i hq
    split
    · rename_i hp
      refine .plain (fun hmem => ?_) .nil
      have hq' : c ≠ '"' ∧ c ≠ '\\' := by simpa using hq
      have hn : c = '\n' := by simpa [hq'.1, hq'.2] using hmem
      rw [hn] at hp
      exact absurd hp (by decide)
    · split
      · exact .escape .nil
      · split
        · exact .escape (hexDigits _ _)
        · split
          · exact .escape (hexDigits _ _)
          · exact .escape (hexDigits _ _)

theorem quoteGlyph (g : Glyph) : LiteralBody (Text.quoteGlyph g) := by
  cases g with
  | char c => exact quoteChar c
  | stray b => exact .escape (hexDigits _ _)

theorem flatMap_quoteGlyph (t : Text) : LiteralBody (t.flatMap Text.quoteGlyph) := by
  induction t with
  | nil => exact .nil
  | cons g t ih => exact (quoteGlyph g).append ih

end LiteralBody

namespace Lexeme

/-- **The scan for the closing quote passes over what stands between the quotes.** -/
theorem stringExtent_append {cs : List Char} (h : LiteralBody cs) (u : Text) :
    stringExtent '"' (cs.map .char ++ u) = (stringExtent '"' u).extend cs.length := by
  have hz : ∀ x : Extent, x.extend 0 = x := fun x => by
    cases x <;> simp [Extent.extend]
  have hadd : ∀ (a b : Nat) (x : Extent), (x.extend a).extend b = x.extend (a + b) :=
    fun a b x => by
    cases x <;> simp [Extent.extend] <;> omega
  induction h with
  | nil => exact (hz _).symm
  | @plain c cs h _ ih =>
    simp only [List.mem_cons, List.not_mem_nil, or_false, not_or] at h
    rw [List.map_cons, List.cons_append, stringExtent.eq_def]
    simp only [Glyph.is, Glyph.toChar_char, beq_iff_eq, h, if_false]
    rw [ih, hadd]; rfl
  | @escape c cs _ ih =>
    rw [List.map_cons, List.map_cons, List.cons_append, List.cons_append, stringExtent.eq_def]
    simp only [Glyph.is, Glyph.toChar_char, beq_iff_eq, Char.reduceEq, if_false, if_true]
    rw [ih, hadd]; rfl

end Lexeme

/-- The glyphs of a quoted text behind its first quote. -/
def quotedTail (t : Text) : Text := (t.flatMap Text.quoteGlyph).map .char ++ [Glyph.char '"']

theorem ofString_quoted (t : Text) : Text.ofString t.quoted = .char '"' :: quotedTail t := by
  rw [Text.quoted, Text.ofString, String.toList_ofList, List.map_append, List.map_cons]; rfl

/-- **A quoted text is read as one string literal**, in front of whatever follows it. -/
theorem Lexeme.first_quoted (prev : Option Token) (t u : Text) :
    Lexeme.first prev (.char '"') (quotedTail t ++ u)
      = .whole .string (Glyph.char '"' :: quotedTail t).length := by
  have hend : stringExtent '"' ([Glyph.char '"'] ++ u) = .closed 1 := by
    rw [List.singleton_append, stringExtent.eq_def]; rfl
  have hx : stringExtent '"' (quotedTail t ++ u) = .closed (quotedTail t).length := by
    rw [quotedTail, List.append_assoc, stringExtent_append (.flatMap_quoteGlyph t), hend,
      List.length_append, List.length_map]; rfl
  have hstart : Text.Identifier.isStart '"' = false := by decide
  simp [first, Glyph.is, hstart, hx, delimited, whole, Nat.add_comm]

/-- A quoted text spells one word. -/
theorem Cuts.quoted {a : Bool} (t u : Text) :
    Cuts a false (Text.ofString t.quoted) [⟨.string, Text.ofString t.quoted, a⟩] u := by
  rw [ofString_quoted]
  exact Cuts.word (by decide) (by decide) fun prev => Lexeme.first_quoted prev t u

end Exemplar
