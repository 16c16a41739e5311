import Exemplar.Proofs.Grammar.Progress
import Exemplar.Proofs.Tree.Bare

/-!
# Where tokens stand in a source

A token ahead of a place stands in the source, at the place it has: what is in front of it ends
where it starts, and it takes as many bytes as its text. So tokens are never empty, and a piece
of the source that starts where a token starts begins with the text of that token.

Enum values, defaults and computed keys are such pieces. The grammar skips the tokens and keeps
the source from the first of them to the end of the last one, and what it then asks of the
piece, such as whether a key is computed, it asks of its first glyph. By what is shown here this
is a question about the first token, and so the answer is the same however the tokens are laid
out.
-/

namespace Exemplar

namespace Text

/-- A piece starts with the glyph that stands where it starts. -/
theorem head?_sliceFrom {start stop here : Nat} (front : Text) (g : Glyph) (more : Text)
    (hstart : here + front.byteSize = start) (hlt : start < stop) :
    (sliceFrom start stop here (front ++ g :: more)).head? = some g := by
  induction front generalizing here with
  | nil =>
    rw [byteSize_nil] at hstart
    rw [List.nil_append, sliceFrom, if_neg (by omega), if_neg (by omega), List.head?_cons]
  | cons k front ih =>
    rw [byteSize_cons] at hstart
    -- Every glyph has a byte at least, so the piece has not started yet.
    have hwidth := k.width_pos
    rw [List.cons_append, sliceFrom, if_neg (by omega), if_pos (by omega)]
    exact ih (by omega)

/-- A piece behind a text is a piece of what comes behind it. -/
theorem sliceFrom_append {start stop here : Nat} (x t : Text)
    (hstart : here + x.byteSize = start)
    (hle : start ≤ stop) : sliceFrom start stop here (x ++ t)
      = sliceFrom start stop start t := by
  induction x generalizing here with
  | nil => rw [byteSize_nil, Nat.add_zero] at hstart; rw [hstart, List.nil_append]
  | cons g x ih =>
    rw [byteSize_cons] at hstart
    have hwidth := g.width_pos
    rw [List.cons_append, sliceFrom, if_neg (by omega), if_pos (by omega)]
    exact ih (by omega)

/-- A piece that starts where a text starts and stops where it stops is the text. -/
theorem sliceFrom_eq {start stop here : Nat} (y z : Text) (hstart : start ≤ here)
    (hstop : here + y.byteSize = stop) : sliceFrom start stop here (y ++ z) = y := by
  induction y generalizing here with
  | nil =>
    rw [byteSize_nil, Nat.add_zero] at hstop
    cases z with
    | nil => rfl
    | cons g z => rw [List.nil_append, sliceFrom, if_pos (by omega)]
  | cons g y ih =>
    rw [byteSize_cons] at hstop
    have hwidth := g.width_pos
    rw [List.cons_append, sliceFrom, if_neg (by omega), if_neg (by omega),
      ih (by omega) (by omega)]

/-- **The piece between two texts.** -/
theorem slice_append (x y z : Text) :
    (x ++ (y ++ z)).slice x.byteSize (x.byteSize + y.byteSize) = y := by
  rw [slice, sliceFrom_append x (y ++ z) (Nat.zero_add _) (Nat.le_add_right _ _)]
  exact sliceFrom_eq y z (Nat.le_refl _) rfl

/-- Of two beginnings of a text the shorter is a beginning of the longer. -/
theorem prefix_of_byteSize_le {x y s : Text} (hx : x <+: s) (hy : y <+: s)
    (h : x.byteSize ≤ y.byteSize) :
    x <+: y := by
  rcases List.prefix_or_prefix_of_prefix hx hy with hxy | ⟨z, rfl⟩
  · exact hxy
  · rw [byteSize_append] at h
    cases z with
    | nil => simp
    | cons g z =>
      rw [byteSize_cons] at h
      -- What the one has more would take more bytes.
      have hwidth := g.width_pos
      omega

end Text

/-- A token stands in the text that is covered, at its place. By induction on the cover, whose
first token stands behind its gap. -/
theorem TokenStream.Covers.exists_append {here : Position} {rest : Text} {s : TokenStream}
    (h : Covers here rest s) {t : Token} (ht : t ∈ s.tokens) :
    ∃ front more, rest = front ++ (t.text ++ more) ∧ t.text ≠ [] ∧
      t.start.offset = here.offset + front.byteSize ∧
      t.stop.offset = t.start.offset + t.text.byteSize := by
  induction h with
  | gap | comment | literal => cases ht
  | @token here gap more u s hgap hne he hi hstart hstop h ih =>
    rcases List.mem_cons.1 ht with rfl | ht
    · refine ⟨gap, more, rfl, hne, ?_, ?_⟩
      · rw [hstart, Position.offset_after]
      · rw [hstop, Position.offset_after, hstart]
    · obtain ⟨front, more', rfl, hne', hstart', hstop'⟩ := ih ht
      refine ⟨gap ++ (u.text ++ front), more',
        by simp only [List.append_assoc], hne', ?_, hstop'⟩
      rw [hstart', hstop, Position.offset_after, Position.offset_after, Text.byteSize_append,
        Text.byteSize_append]
      omega

namespace Cursor

variable {c d : Cursor}

/-- A token ahead stands in the source, at its place. The source is covered from its beginning,
so places are counted from there. -/
theorem Visited.exists_append (hc : c.Visited) {t : Token} (ht : t ∈ c.rest) :
    ∃ front more, c.source = front ++ (t.text ++ more) ∧ t.text ≠ [] ∧
      t.start.offset = front.byteSize ∧ t.stop.offset = t.start.offset + t.text.byteSize := by
  have hmem : t ∈ (TokenStream.lex c.source).tokens := hc.suffix.subset ht
  obtain ⟨front, more, hsplit, hne, hstart, hstop⟩ :=
    (TokenStream.covers_lexFrom none .start c.source).exists_append hmem
  refine ⟨front, more, hsplit, hne, ?_, hstop⟩
  rw [hstart]
  exact Nat.zero_add _

/-- A token is not empty. -/
theorem Visited.start_lt_stop (hc : c.Visited) {t : Token} (ht : t ∈ c.rest) :
    t.start.offset < t.stop.offset := by
  obtain ⟨_, _, -, hne, -, hstop⟩ := hc.exists_append ht
  rw [hstop]
  cases hx : t.text with
  | nil => exact absurd hx hne
  | cons g x =>
    rw [Text.byteSize_cons]
    exact Nat.lt_add_of_pos_right (Nat.add_pos_left g.width_pos _)

/-- A run that consumes something stops no earlier than the token it starts at. Tokens are in
order, and the one it starts at is among those that are consumed. -/
theorem Visited.stop_le_lastStop (hc : c.Visited) (h : c.Reaches d)
    (hlt : d.rest.length < c.rest.length) : c.current.stop.offset ≤ d.lastStop.offset := by
  cases h with
  | refl => exact absurd hlt (Nat.lt_irrefl _)
  | past hr h =>
    rw [current_of_cons hr]
    exact (h.ordered (hc.ordered.past hr)).2

/-- The token behind a token ahead is the current one once that is consumed. -/
theorem Visited.pair_infix (hc : c.Visited) {t : Token} {more : List Token}
    (hr : c.rest = t :: more) :
    [t, (c.past t more).current] <:+: (TokenStream.lex c.source).all := by
  obtain ⟨front, hfront⟩ := hc.suffix
  have htokens : (TokenStream.lex c.source).all
      = front ++ (t :: (more ++ [c.ending.token])) := by
    rw [TokenStream.all, ← hfront, hr, hc.ending, List.append_assoc, List.cons_append]
  rw [htokens]
  cases more with
  | nil => exact ⟨front, [], by rw [current_of_nil rfl, List.append_nil]; rfl⟩
  | cons u more =>
    refine ⟨front, more ++ [c.ending.token], ?_⟩
    rw [current_of_cons rfl, List.append_assoc]
    rfl

/-- A piece of the source from the current token on begins with that token. -/
theorem Visited.head?_slice (hc : c.Visited) (hr : c.rest ≠ []) {stop : Nat}
    (hstop : c.current.stop.offset ≤ stop) :
    (c.source.slice c.current.start.offset stop).head? = c.current.text.head? := by
  obtain ⟨t, more, hcons⟩ := List.exists_cons_of_ne_nil hr
  have ht : t ∈ c.rest := hcons ▸ List.mem_cons_self
  rw [current_of_cons hcons] at hstop ⊢
  obtain ⟨front, more', hsource, hne, hstart, -⟩ := hc.exists_append ht
  obtain ⟨g, x, hx⟩ := List.exists_cons_of_ne_nil hne
  rw [hsource, hx, Text.slice, List.cons_append, List.head?_cons]
  exact Text.head?_sliceFrom front g _ (by rw [hstart, Nat.zero_add])
    (Nat.lt_of_lt_of_le (hc.start_lt_stop ht) hstop)

/-- **A piece of the source from one token to another** begins with the one and ends with the
other. The two stand in the source one behind the other, so what is up to the end of the one is
a beginning of what is up to the start of the other. -/
theorem Visited.exists_slice (hc : c.Visited) {t p : Token} {inner more : List Token}
    (hr : c.rest = t :: (inner ++ p :: more)) :
    ∃ y, c.source.slice t.start.offset p.stop.offset = t.text ++ (y ++ p.text) := by
  obtain ⟨front, back, hsource, -, hstart, hstop⟩ := hc.exists_append (t := t) (by simp [hr])
  obtain ⟨front', back', hsource', -, hstart', hstop'⟩ :=
    hc.exists_append (t := p) (by simp [hr])
  have hle : t.stop.offset ≤ p.start.offset := by
    have hascends := hc.ordered.ascends
    rw [hr, List.cons_append, List.pairwise_cons] at hascends
    exact hascends.1 p (by simp)
  -- what is in front of the second token begins with the first
  have hprefix : front ++ t.text <+: front' := by
    refine Text.prefix_of_byteSize_le (s := c.source) ⟨back, ?_⟩
      ⟨p.text ++ back', hsource'.symm⟩ ?_
    · rw [List.append_assoc]; exact hsource.symm
    · rw [Text.byteSize_append]; omega
  obtain ⟨y, rfl⟩ := hprefix
  refine ⟨y, ?_⟩
  have hslice := Text.slice_append front (t.text ++ (y ++ p.text)) back'
  simp only [Text.byteSize_append, List.append_assoc] at hslice hsource' hstart'
  rw [hsource', hstop', hstart', hstart, ← hslice]
  simp only [Nat.add_assoc]

end Cursor

/-! ## Computed keys -/

namespace Parser

open Exemplar.Tree

variable {c d : Cursor}

/-- What is in brackets starts with a bracket, however it is laid out. Only the first glyph is
looked at, which is that of the bracket. -/
theorem isComputedKey_slice (hc : c.Visited) (hbracket : c.current.is "[" = true)
    (h : skipGroup c = .ok ((), d)) :
    isComputedKey (d.source.slice c.current.start.offset d.lastStop.offset) = true := by
  have hreach := Moves.reaches_of_ok h
  have hhead := hc.head?_slice (hc.rest_ne_nil (Token.isEof_of_is hbracket))
    (hc.stop_le_lastStop hreach (Consumes.lt_of_ok hc h))
  have htext : c.current.text = Text.ofString "[" := by
    simp only [Token.is, Bool.and_eq_true, beq_iff_eq] at hbracket
    exact hbracket.2
  rw [hreach.source, isComputedKey, hhead, htext]
  rfl

end Parser

end Exemplar
