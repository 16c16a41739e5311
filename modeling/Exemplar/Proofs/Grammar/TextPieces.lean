import Exemplar.Proofs.Grammar.TwoParts

/-!
# A text as a piece of a source

A text that can be lexed alone spells the same words wherever it stands in a source, if a seam
comes behind it. Three things could get in the way: an identifier that ends in the middle of an
escape would go on, a comment without an end would, and a slash at the beginning might be read
differently behind another token. A text without backslashes has no escapes, so the first of
them cannot happen there.

Three facts about lexing are put together for this. What comes before a text is only asked about
a slash (`lexFrom_of_noSlashFirst`), at another place the same tokens are found with their
places moved (`lexFrom_elsewhere`), and before a seam a text is lexed as it is at the end of a
source (`lexFrom_behind`).
-/

namespace Exemplar

/-! ## Where a slash comes first

Behind a token that ends an expression a slash divides, and elsewhere it starts a regular
expression. It is enough to know that the first token of the text is neither. -/

namespace Lexeme

variable {g : Glyph} {more : Text}

/-- Only a slash is read in two ways. -/
theorem first_of_noSlash (hg : g.is '/' = false) (more : Text) (prev prev' : Option Token) :
    first prev' g more = first prev g more := by
  unfold first
  rw [hg, Bool.false_and, Bool.false_and]

/-- A slash starts a regular expression or is a punctuator. -/
theorem kind_of_slash {prev : Option Token} (hg : g.is '/' = true)
    (hf : (first prev g more).fault = none) :
    (first prev g more).kind = .regex ∨ (first prev g more).kind = .punct := by
  rw [first_of_slash hg] at hf ⊢
  split
  · rename_i hregex
    rw [if_pos hregex] at hf
    exact .inl (delimited_kind _ hf)
  · exact .inr rfl

end Lexeme

namespace TokenStream

variable {prev prev' : Option Token} {here here' : Position} {x : Text}
  {front bytes : List UInt8} {b : Bool}

/-- The first token of a source, if it has one, does not start with a slash. -/
def NoSlashFirst (s : TokenStream) : Prop :=
  ∀ t ∈ s.tokens.head?, ∀ g ∈ t.text.head?, g.is '/' = false

/-- A source does not start with a slash if its first token is no regular expression, and no
punctuator that starts so. -/
theorem noSlashFirst_of_head (hf : (lexFrom prev here x).ending.fault = none)
    (h : ∀ t ∈ (lexFrom prev here x).tokens.head?, t.kind ≠ .regex ∧
      (t.kind = .punct → ∀ g ∈ t.text.head?, g.is '/' = false)) :
        (lexFrom prev here x).NoSlashFirst := by
  intro t ht g hg
  obtain ⟨hregex, hpunct⟩ := h t ht
  obtain ⟨hc, ⟨hd, -⟩ | ⟨g', more, hd, hl⟩⟩ := lexFrom_cases hf
  · rw [lexFrom_of_gap hc hd] at ht
    cases ht
  · rw [lexFrom_of_token hc hd hl] at ht
    obtain rfl := Option.some.inj ht
    obtain ⟨k, hk⟩ := Nat.exists_eq_add_one.2 (Lexeme.first_length_pos prev g' more)
    rw [tokenAt, hk] at hg
    obtain rfl := Option.some.inj hg
    refine Bool.eq_false_iff.2 fun hslash => ?_
    obtain hkind | hkind := Lexeme.kind_of_slash hslash hl
    · exact hregex hkind
    · have hg : g'.is '/' = false := hpunct hkind g' (by rw [tokenAt, hk]; rfl)
      rw [hslash] at hg
      cases hg

/-- Before a token that does not start with a slash it does not matter which token comes
before. -/
theorem lexFrom_of_noSlashFirst (hf : (lexFrom prev here x).ending.fault = none)
    (h : (lexFrom prev here x).NoSlashFirst) (prev' : Option Token) :
    lexFrom prev' here x = lexFrom prev here x := by
  obtain ⟨hc, ⟨hd, -⟩ | ⟨g, more, hd, hl⟩⟩ := lexFrom_cases hf
  · rw [lexFrom_of_gap hc hd, lexFrom_of_gap hc hd]
  · rw [lexFrom_of_token hc hd hl] at h
    have hg : g.is '/' = false := by
      obtain ⟨k, hk⟩ := Nat.exists_eq_add_one.2 (Lexeme.first_length_pos prev g more)
      refine h _ rfl g ?_
      rw [tokenAt, hk]
      rfl
    have hfirst := Lexeme.first_of_noSlash hg more prev prev'
    rw [lexFrom_of_token hc hd hl, lexFrom_of_token hc hd (hfirst ▸ hl),
      tokenAt, tokenAt, hfirst]

/-! ## Another place

What a token says does not change with its place, and neither do the gaps between the tokens. -/

/-- The gaps between tokens are the same at another place. -/
theorem gaps_moved {ts us : List Token}
    (h : List.Forall₂ (Token.Moved front.length) ts us) (bytes : List UInt8)
    (n : Nat) :
    gaps (front ++ bytes) (front.length + n) us = gaps bytes n ts := by
  induction h generalizing n with
  | nil => rfl
  | cons ht _ ih =>
    have hstart := ht.start
    have hstop := ht.stop
    rw [gaps, gaps, hstart, hstop, Nat.add_comm _ front.length, Nat.add_comm _ front.length, ih,
      List.extract_eq_take_drop, List.extract_eq_take_drop, List.drop_length_add_append,
      Nat.add_sub_add_left]

/-- Tokens that have moved say the same. -/
theorem words_moved {n : Nat} {ts us : List Token} (h : List.Forall₂ (Token.Moved n) ts us) :
    us.map Token.word = ts.map Token.word := by
  induction h with
  | nil => rfl
  | cons ht _ ih =>
    obtain ⟨span, rfl⟩ := ht.same.exists_span
    rw [List.map_cons, List.map_cons, ih]
    rfl

/-- What a text spells, how its last gap ends and where a comment stands in it do not depend on
the place. -/
theorem lexFrom_elsewhere (hf : (lex x).ending.fault = none) (hslash : (lex x).NoSlashFirst)
    (hhere : here.offset = front.length) (prev : Option Token) :
    (lexFrom prev here x).ending.fault = none ∧
      (lexFrom prev here x).tokens.map Token.word = (lex x).tokens.map Token.word ∧
      (lexFrom prev here x).ending.token.newlineBefore = (lex x).ending.token.newlineBefore ∧
      gaps (front ++ x.encode) here.offset (lexFrom prev here x).all
      = gaps x.encode 0 (lex x).all := by
  have hprev : lexFrom prev .start x = lex x := lexFrom_of_noSlashFirst hf hslash prev
  have hoff : here.offset = Position.start.offset + here.offset := (Nat.zero_add _).symm
  have hregex : Lexeme.regexAllowed prev = Lexeme.regexAllowed prev := rfl
  obtain ⟨hall, hfault⟩ := lexFrom_all_moved hregex hoff (hprev ▸ hf)
  obtain ⟨htokens, -⟩ := lexFrom_moved hregex hoff (hprev ▸ hf)
  rw [hprev] at hall htokens
  have hwords := words_moved hall
  rw [all, all, List.map_append, List.map_append, words_moved htokens] at hwords
  have hending := (List.cons.inj (List.append_cancel_left hwords)).1
  refine ⟨hfault, words_moved htokens, congrArg Word.newlineBefore hending, ?_⟩
  rw [hhere] at hall
  have hgaps := gaps_moved hall x.encode 0
  rwa [Nat.add_zero, ← hhere] at hgaps

/-! ## Escapes

An identifier is cut off only if the source ends in an escape, and without a backslash there is
none. -/

/-- The glyphs of a token are glyphs of the source. -/
theorem Covers.subset {s : TokenStream} (h : Covers here x s) {t : Token} (ht : t ∈ s.tokens) :
    t.text ⊆ x := by
  induction h with
  | gap | comment | literal => cases ht
  | @token _ gap more u s hgap _ _ _ _ _ _ ih =>
    rcases List.mem_cons.1 ht with rfl | ht
    · exact fun g hg => List.mem_append_right _ (List.mem_append_left _ hg)
    · exact fun g hg => List.mem_append_right _ (List.mem_append_right _ (ih ht hg))

/-- A source in which nothing is left open ends with its end. -/
theorem Covers.ending {s : TokenStream} (h : Covers here x s) (hf : s.ending.fault = none) :
    ∃ start newline, s.ending = (atEnd start newline none).ending := by
  induction h with
  | gap => exact ⟨_, _, rfl⟩
  | comment | literal => cases hf
  | token _ _ _ _ _ _ _ ih => exact ih hf

/-- A text without backslashes has no escapes. -/
theorem NotCut.of_plain (h : ∀ g ∈ x, g.is '\\' = false) : (lexFrom prev here x).NotCut :=
  fun _ ht _ g hg => h g ((covers_lexFrom prev here x).subset (List.mem_of_getLast? ht) hg)

end TokenStream

open TokenStream in
/-- **A text that can be lexed alone spells the same words as a piece of a source**, in front of
a seam. -/
theorem Cuts.piece {b : Char} {x : Text} (hb : b ∈ seams) (hf : (lex x).ending.fault = none)
    (hplain : ∀ g ∈ x, g.is '\\' = false) (hslash : (lex x).NoSlashFirst)
    (hend : (lex x).Meets b x.encode 0) (u : Text) :
    Cuts false ((lex x).ending.token.newlineBefore || b == '\n') (x ++ [Glyph.char b])
      ((lex x).tokens.map Token.word) u := by
  intro prev here
  -- Any bytes can stand in front, as long as there are as many as the place says.
  have hhere : here.offset = (List.replicate here.offset (0 : UInt8)).length :=
    List.length_replicate.symm
  obtain ⟨hfault, hwords, hnewline, hgaps⟩ := lexFrom_elsewhere hf hslash hhere prev
  have hlex := lexFrom_behind hb prev here x u hhere hfault (.of_plain hplain)
    (hend.imp_right fun h => hgaps ▸ h)
  rw [hnewline] at hlex
  refine ⟨_, (lexFrom prev here x).tokens.getLast?.or prev,
    here.after (x ++ [Glyph.char b]), hwords, ?_⟩
  rw [mark_false, List.append_assoc, List.singleton_append, hlex]
  rfl

open TokenStream in
/-- It does so at the end of a source as well. -/
theorem Cuts.last_piece {x : Text} (hf : (lex x).ending.fault = none)
    (hslash : (lex x).NoSlashFirst) :
    Cuts false (lex x).ending.token.newlineBefore x ((lex x).tokens.map Token.word) [] := by
  intro prev here
  have hhere : here.offset = (List.replicate here.offset (0 : UInt8)).length :=
    List.length_replicate.symm
  obtain ⟨hfault, hwords, hnewline, -⟩ := lexFrom_elsewhere hf hslash hhere prev
  obtain ⟨start, newline, hending⟩ := (covers_lexFrom prev here x).ending hfault
  refine ⟨(lexFrom prev here x).tokens, prev, start, hwords, ?_⟩
  have hnil : lexFrom prev start [] = atEnd start false none := by
    rw [lexFrom_eq]
    rfl
  have heq : newline = (lex x).ending.token.newlineBefore := by
    rw [← hnewline, hending]
    rfl
  rw [mark_false, List.append_nil, hnil, ← heq]
  show _ = TokenStream.mk (_ ++ []) (atEnd start (newline || false) none).ending
  rw [List.append_nil, Bool.or_false, ← hending]

end Exemplar
