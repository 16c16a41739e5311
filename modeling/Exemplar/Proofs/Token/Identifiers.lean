import Exemplar.Proofs.Token.Substitutions

/-!
# Identifiers, strings and numbers on their own

What a token is can often be read off its text alone. A text that starts with a letter and goes
on with letters and marks is one identifier, and lexing it gives that identifier and nothing
else; in the other direction, a text that lexes to one identifier is of this form unless an
escape stands in it or a `#` in front of it. A string is written between two quotes that are
alike, and a number starts with a digit or a point, so that neither can be taken for an
identifier.

Every token is the lexeme of some place (`exists_tokenAt`), and what is known about lexemes
holds of tokens.
-/

namespace Exemplar

open Exemplar.Lexeme Exemplar.Text.Identifier

namespace Text

variable {s : Text}

/-- Lexing the text gives one token in front of the end of the source: an identifier, which
covers the text. -/
def IsOneName (s : Text) : Prop :=
  ∃ t, (TokenStream.lex s).tokens = [t] ∧ (TokenStream.lex s).ending.Clean ∧
    t.kind = .ident ∧ t.text = s ∧
    t.start.offset = 0 ∧ t.stop.offset = s.byteSize

/-- No escape stands in the text, and no `#` at its beginning. -/
structure IsPlain (s : Text) : Prop where
  /-- No glyph is a backslash. -/
  escape : ∀ g ∈ s, g.is '\\' = false
  /-- The first glyph is no `#`. -/
  hash : ∀ g ∈ s.head?, g.is '#' = false

instance (s : Text) : Decidable s.IsPlain :=
  decidable_of_iff ((∀ g ∈ s, g.is '\\' = false) ∧ ∀ g ∈ s.head?, g.is '#' = false)
    ⟨fun h => ⟨h.1, h.2⟩, fun h => ⟨h.escape, h.hash⟩⟩

end Text

/-! ## Identifiers

A text of letters is scanned to its end, because no glyph in it ends the scan. Conversely, what
the scan of an identifier has gone over are letters, but for what stands in an escape. -/

namespace Lexeme

variable {s x : Text} {g : Glyph}

/-- A backslash and `#` are no letters. -/
theorem isPlain_of_isLetters (h : isLetters s = true) : s.IsPlain := by
  cases s with
  | nil => cases h
  | cons g x =>
    rw [isLetters, Bool.and_eq_true, List.all_eq_true] at h
    refine ⟨fun k hk => ?_, fun k hk => ?_⟩
    · have hcontinue : isContinue k.toChar = true :=
        (List.mem_cons.1 hk).elim (fun heq => heq ▸ isContinue_of_isStart h.1) (h.2 k)
      rw [Glyph.is, beq_eq_false_iff_ne]
      intro hc
      rw [hc] at hcontinue
      exact absurd hcontinue (by decide)
    · rw [List.head?_cons, Option.mem_some] at hk
      exact hk ▸ is_eq_false_of_isStart h.1 (by decide)

/-- A text of letters lexes to itself. -/
theorem isOneName_of_isLetters (h : isLetters s = true) : s.IsOneName := by
  have hname : IsName ([] = ([] : Text)) s := .of_isLetters h
  obtain ⟨g, x, rfl, -⟩ := hname.starts
  have hlex : TokenStream.lexFrom none .start (g :: x ++ []) = _ :=
    TokenStream.lexFrom_word hname.not_gap.1 hname.not_gap.2
      (first_of_isName hname stopsName_nil)
  rw [List.append_nil, TokenStream.lexFrom_eq _ _ []] at hlex
  rw [Text.IsOneName, TokenStream.lex, hlex]
  refine ⟨_, rfl, ⟨rfl, rfl, rfl⟩, rfl, rfl, rfl, ?_⟩
  exact (Position.offset_after _ _).trans (Nat.zero_add _)

/-- **An identifier without an escape or a `#` is made of letters.** An escape is the only way
for its scan to go over anything else, and all of it is scanned. -/
theorem isLetters_of_isName {cut : Prop} (h : IsName cut s) (hs : s.IsPlain) :
    isLetters s = true := by
  obtain ⟨g, x, rfl, hstart⟩ := h.starts
  have hhash := hs.hash g rfl
  obtain ⟨m, hm, -⟩ := h.scanned
  rw [nameBody, hhash] at hm
  have hall := all_isContinue_of_read NameMode.done_plain hs.escape hm
  rw [List.all_cons, Bool.and_eq_true] at hall
  rw [isLetters, hall.2, Bool.and_true]
  obtain hstart | hescape | ⟨hhash', -⟩ := hstart
  · exact hstart
  · rw [hs.escape g List.mem_cons_self] at hescape
    cases hescape
  · rw [hhash] at hhash'
    cases hhash'

/-- **A text is made of letters if and only if it lexes to one identifier**, which holds no
escape and does not start with `#`. -/
theorem isLetters_iff (s : Text) : isLetters s = true ↔ s.IsOneName ∧ s.IsPlain := by
  refine ⟨fun h => ⟨isOneName_of_isLetters h, isPlain_of_isLetters h⟩, ?_⟩
  rintro ⟨⟨t, htokens, -, hkind, htext, -⟩, hplain⟩
  have hregular : t.Regular [] :=
    (TokenStream.regular_lexFrom none .start s).tokens (htokens.trans (List.nil_append _).symm)
  exact isLetters_of_isName (htext ▸ hregular.name (beq_iff_eq.2 hkind)) hplain

/-! ## Strings and numbers

Which kind of lexeme starts at a glyph is asked in an order, so of each kind it is known that
none of those before it was the case. Only what is needed of a string and of a number is taken
from there. -/

variable {prev : Option Token} {more : Text}

/-- A literal is of the kind that was asked for, or left open. -/
theorem delimited_kind_ne {kind k : Token.Kind} (e : Extent) (hk : kind ≠ k)
    (hi : Token.Kind.illegal ≠ k) :
    (delimited kind e).kind ≠ k := by
  cases e with
  | closed n => exact hk
  | broken n f => exact hi

/-- The lexeme of a string starts with a quote. -/
theorem first_of_string (h : (first prev g more).kind = .string) :
    (g.is '"' = true ∨ g.is '\'' = true) ∧
    first prev g more = delimited .string (stringExtent g.toChar more) := by
  revert h
  unfold first
  -- An identifier, one behind `#` and a number come first.
  split
  · exact nofun
  split
  · exact nofun
  split
  · exact nofun
  split
  · rename_i hquote
    exact fun _ => ⟨(Bool.or_eq_true _ _).mp hquote, rfl⟩
  split
  · exact fun h => absurd h (delimited_kind_ne _ nofun nofun)
  split
  · exact fun h => absurd h (delimited_kind_ne _ nofun nofun)
  · exact nofun

/-- A string goes on to a quote like the one it starts with. By the cases of the scan. -/
theorem exists_take_of_stringExtent {quote : Char} {k : Nat}
    (h : stringExtent quote x = .closed k) :
    ∃ (body : Text) (q : Glyph), x.take k = body ++ [q] ∧ q.is quote = true := by
  fun_induction stringExtent quote x generalizing k with
  | case1 => cases h
  | case2 g rest hquote =>
    obtain rfl := Extent.closed.inj h
    exact ⟨[], g, rfl, hquote⟩
  | case3 => cases h
  | case4 g _ _ _ k' rest ih =>
    obtain ⟨n, hn, rfl⟩ := extend_eq_closed h
    obtain ⟨body, q, hbody, hq⟩ := ih hn
    exact ⟨g :: k' :: body, q,
      by rw [Nat.add_comm 2, List.take_succ_cons, List.take_succ_cons, hbody]; rfl, hq⟩
  | case5 => cases h
  | case6 g rest _ _ _ ih =>
    obtain ⟨n, hn, rfl⟩ := extend_eq_closed h
    obtain ⟨body, q, hbody, hq⟩ := ih hn
    exact ⟨g :: body, q, by rw [Nat.add_comm 1, List.take_succ_cons, hbody]; rfl, hq⟩

/-- The lexeme of a number starts with a digit or a point. -/
theorem isDigit_of_number (h : (first prev g more).kind = .number) :
    g.toChar.isDigit = true ∨ g.is '.' = true := by
  revert h
  unfold first
  split
  · exact nofun
  split
  · exact nofun
  split
  · rename_i hdigit
    rw [Bool.or_eq_true, Bool.and_eq_true] at hdigit
    exact fun _ => hdigit.imp_right And.left
  split
  · exact fun h => absurd h (delimited_kind_ne _ nofun nofun)
  split
  · exact fun h => absurd h (delimited_kind_ne _ nofun nofun)
  split
  · exact fun h => absurd h (delimited_kind_ne _ nofun nofun)
  · exact nofun

/-- What starts a number starts no identifier. -/
theorem isStart_of_isDigit (h : g.toChar.isDigit = true ∨ g.is '.' = true) :
    isStart g.toChar = false := by
  rcases h with h | h
  · exact Bool.eq_false_iff.2 fun hs => Bool.eq_false_iff.1 (isDigit_of_isStart hs) h
  · rw [beq_iff_eq.1 h]
    decide

/-- What starts a number is read as a digit or a point. -/
theorem is_eq_false_of_isDigit (h : g.toChar.isDigit = true ∨ g.is '.' = true) {c : Char}
    (hc : c.isDigit = false)
    (hne : '.' ≠ c) : g.is c = false := by
  rcases h with h | h
  · rw [Glyph.is, beq_eq_false_iff_ne]
    rintro rfl
    rw [hc] at h
    cases h
  · exact is_eq_false h hne

end Lexeme

/-! ## Tokens

What holds of all lexemes holds of all tokens. -/

namespace TokenStream

variable {prev : Option Token} {here : Position} {x : Text} {t : Token}

/-- **Every token is the lexeme of some place.** By induction on the length of what is left. -/
theorem exists_tokenAt (h : t ∈ (lexFrom prev here x).tokens) : ∃ prev' start newline g more,
    t = tokenAt prev' start newline g more ∧ (first prev' g more).fault = none := by
  induction hn : x.length using Nat.strongRecOn generalizing prev here x with
  | ind n ih =>
    subst hn
    cases hc : (Gap.before x).closed with
    | false => rw [lexFrom_of_open hc] at h; cases h
    | true =>
      cases hd : x.drop (Gap.before x).length with
      | nil => rw [lexFrom_of_gap hc hd] at h; cases h
      | cons g more =>
        cases hf : (first prev g more).fault with
        | some fault => rw [lexFrom_of_fault hc hd hf] at h; cases h
        | none =>
          rw [lexFrom_of_token hc hd hf] at h
          rcases List.mem_cons.1 h with rfl | h
          · exact ⟨_, _, _, _, _, rfl, hf⟩
          · exact ih _ (length_drop_lt hd _) h rfl

/-- **A string is written between two quotes that are alike.** -/
theorem exists_text_of_string (h : t ∈ (lexFrom prev here x).tokens) (hk : t.kind = .string) :
    ∃ (q : Glyph) (body : Text) (q' : Glyph), t.text = q :: (body ++ [q']) ∧
      (q.is '"' = true ∨ q.is '\'' = true) ∧ q'.is q.toChar = true := by
  obtain ⟨prev', start, newline, g, more, rfl, hf⟩ := exists_tokenAt h
  obtain ⟨hquote, hfirst⟩ := first_of_string hk
  rw [hfirst] at hf
  cases he : stringExtent g.toChar more with
  | broken n f => rw [he] at hf; cases hf
  | closed n =>
    obtain ⟨body, q, hbody, hq⟩ := exists_take_of_stringExtent he
    refine ⟨g, body, q, ?_, hquote, hq⟩
    show (g :: more).take (first prev' g more).length = _
    rw [hfirst, he, ← hbody]
    show (g :: more).take (1 + n) = _
    rw [Nat.add_comm, List.take_succ_cons]

/-- A number starts with a digit or a point. -/
theorem exists_text_of_number (h : t ∈ (lexFrom prev here x).tokens) (hk : t.kind = .number) :
    ∃ g rest,
    t.text = g :: rest ∧ (g.toChar.isDigit = true ∨ g.is '.' = true) := by
  obtain ⟨prev', start, newline, g, more, rfl, -⟩ := exists_tokenAt h
  obtain ⟨n, hn⟩ := Nat.exists_eq_add_one.2 (first_length_pos prev' g more)
  refine ⟨g, more.take n, ?_, isDigit_of_number hk⟩
  show (g :: more).take (first prev' g more).length = _
  rw [hn, List.take_succ_cons]

end TokenStream

end Exemplar
