import Exemplar.Proofs.Token.Names
import Exemplar.Token.Stream

/-!
# Words and the texts that spell them

Lexing a text that is put together from blanks and words gives the words back, provided that
each word ends where the next piece begins. The equations below say so for one piece at a time,
from the left: a blank moves the place, a line end is remembered for the next token, and a word
becomes a token. A text whose pieces are known is lexed by rewriting with them.

Whether a word ends where the next piece begins is asked of the first glyph of that piece alone.
An identifier ends before what is neither a letter nor an escape, and a mark before what does
not make a longer one of it, which the table of punctuators decides.

`Cuts` puts this into a form in which texts can be composed. It speaks of a text in front of
another, since a word is read with a look at what follows, and of the words alone, since the
places depend on what comes before. Whether a line ends before a word is part of it, so a text
that spells words passes on whether it ends with the end of a line.
-/

namespace Exemplar

open Exemplar.Text.Identifier

/-! ## Blanks are not letters

The blanks are few, so it can be looked up for each of them whether an identifier goes on with
it. -/

namespace Text

/-- The code points of the blanks. -/
def blankPoints : List Nat :=
  [9, 10, 11, 12, 13, 0x20, 0x85, 0xA0, 0x1680, 0x2000, 0x2001, 0x2002, 0x2003, 0x2004, 0x2005,
   0x2006, 0x2007, 0x2008, 0x2009, 0x200A, 0x2028, 0x2029, 0x202F, 0x205F, 0x3000, 0xFEFF]

/-- These are all blanks. -/
theorem mem_blankPoints {c : Char} (h : isBlank c = true) : c.toNat ∈ blankPoints := by
  have hlow : ∀ n ∈ List.range' 9 5, n ∈ blankPoints := by decide
  have hwide : ∀ n ∈ List.range' 0x2000 11, n ∈ blankPoints := by decide
  simp only [isBlank, isSpace, Bool.or_eq_true, Bool.and_eq_true, decide_eq_true_eq,
    beq_iff_eq] at h
  rcases h with ((((((((((⟨h, h'⟩ | h) | h) | h) | h) | ⟨h, h'⟩) | h) | h) | h) | h) | h) | rfl
  case inl.inl.inl.inl.inl.inl.inl.inl.inl.inl.inl =>
    exact hlow _ (List.mem_range'_1.2 ⟨h, by omega⟩)
  case inl.inl.inl.inl.inl.inl.inr => exact hwide _ (List.mem_range'_1.2 ⟨h, by omega⟩)
  case inr => decide
  all_goals
    rw [h]
    decide

/-- Comparing by the function of the kernel makes a search in a long table fast. -/
theorem decide_le_eq_ble (m n : Nat) : decide (m ≤ n) = Nat.ble m n := by
  rw [Bool.eq_iff_iff, decide_eq_true_iff, Nat.ble_eq]

/-- **No identifier goes on with a blank**, and no number. -/
theorem isContinue_of_isBlank {c : Char} (hc : isBlank c = true) : isContinue c = false := by
  have key : ∀ n ∈ blankPoints, isContinue (Char.ofNat n) = false := by
    simp only [isContinue, isLetterOrMark, isLetter, decide_le_eq_ble]
    decide +kernel
  have h := key _ (mem_blankPoints hc)
  rwa [Char.ofNat_toNat] at h

/-- No identifier starts with a blank either. -/
theorem isStart_of_isBlank {c : Char} (hc : isBlank c = true) : isStart c = false :=
  Bool.eq_false_iff.2 fun h =>
    Bool.eq_false_iff.1 (isContinue_of_isBlank hc) (isContinue_of_isStart h)

/-- So what starts an identifier is no blank. -/
theorem isBlank_of_isStart {c : Char} (h : isStart c = true) : isBlank c = false :=
  Bool.eq_false_iff.2 fun hb => Bool.eq_false_iff.1 (isStart_of_isBlank hb) h

/-- A string is known by its text. -/
theorem ofString_inj {s t : String} : ofString s = ofString t ↔ s = t := by
  rw [ofString, ofString, List.map_inj_right (fun _ _ h => Glyph.char.inj h), String.toList_inj]

end Text

/-- A token is at most one of the words it may be. -/
theorem Token.is_eq_false_of_is {t : Token} {v w : String} (h : t.is v = true) (hne : v ≠ w) :
    t.is w = false := by
  rw [Token.is, Bool.and_eq_true, beq_iff_eq] at h
  rw [Token.is, Bool.and_eq_false_iff]
  refine .inr (beq_eq_false_iff_ne.2 fun hw => hne ?_)
  rw [h.2] at hw
  exact Text.ofString_inj.1 hw

namespace Gap

/-- A gap is empty before a glyph that is neither blank nor the start of a comment. -/
theorem before_eq_none {g : Glyph} {more : Text} (hb : Text.isBlank g.toChar = false)
    (hc : g.is '/' = false) : before (g :: more) = none := by
  have hl : Text.isLineEnd g.toChar = false := by
    cases h : Text.isLineEnd g.toChar with
    | false => rfl
    | true => rw [Text.isBlank_of_isLineEnd h] at hb; cases hb
  simp [before, scan, Mode.next?, hl, hb, hc]

end Gap

/-- A slash starts a regular expression, or a punctuator where none may stand. -/
theorem Lexeme.first_of_slash {prev : Option Token} {g : Glyph} {more : Text}
    (hg : g.is '/' = true) :
    first prev g more = if regexAllowed prev then delimited .regex (regexExtent false more)
      else whole .punct (punctuatorLength (g :: more)) := by
  have hchar : g.toChar = '/' := beq_iff_eq.1 hg
  have hstart : isStart g.toChar = false := by rw [hchar]; decide
  have hdigit : g.toChar.isDigit = false := by rw [hchar]; decide
  unfold first
  simp only [hstart, hdigit, is_eq_false hg (by decide : '/' ≠ '\\'),
    is_eq_false hg (by decide : '/' ≠ '#'), is_eq_false hg (by decide : '/' ≠ '.'),
    is_eq_false hg (by decide : '/' ≠ '"'), is_eq_false hg (by decide : '/' ≠ '\''),
    is_eq_false hg (by decide : '/' ≠ '\x60'), hg, Bool.false_and, Bool.or_false, Bool.true_and,
    if_neg Bool.false_ne_true]

/-- Of the token before, a lexeme only asks whether a slash starts a regular expression. -/
theorem Lexeme.first_congr {prev prev' : Option Token}
    (h : regexAllowed prev = regexAllowed prev') (g : Glyph)
    (more : Text) : first prev g more = first prev' g more := by
  rw [first, first, h]

namespace TokenStream

/-- One step of lexing. There is a gap, then the end of the source or a lexeme, and behind a
lexeme without a fault it goes on. -/
theorem lexFrom_eq (prev : Option Token) (here : Position) (rest : Text) :
    lexFrom prev here rest =
      let gap := Gap.before rest
      let start := here.after (rest.take gap.length)
      if gap.closed then
        match rest.drop gap.length with
        | [] => atEnd start gap.newline none
        | g :: more =>
          let lexeme := Lexeme.first prev g more
          let text := (g :: more).take lexeme.length
          let token : Token := ⟨lexeme.kind, text, ⟨start, start.after text⟩, gap.newline⟩
          match lexeme.fault with
          | some fault => ⟨[], ⟨token, some fault⟩⟩
          | none => cons token (lexFrom (some token) token.stop (more.drop (lexeme.length - 1)))
      else atEnd start gap.newline (some .comment) := by
  rw [lexFrom]
  dsimp only
  split
  · split
    · rename_i h; rw [h]
    · rename_i g more h
      cases hf : (Lexeme.first prev g more).fault <;> simp only [h, hf]
  · rfl

/-- **Less is left behind a token**, which is what lexing goes by. -/
theorem length_drop_lt {x more : Text} {g : Glyph} {k : Nat}
    (hd : x.drop k = g :: more) (n : Nat) :
    (more.drop n).length < x.length := by
  have hlen := congrArg List.length hd
  rw [List.length_drop, List.length_cons] at hlen
  rw [List.length_drop]
  omega

/-- A stream whose first token stands behind a line end, if `newline` says so. -/
def mark (newline : Bool) (s : TokenStream) : TokenStream :=
  match s.tokens with
  | [] => ⟨[], { s.ending with
      token :=
        { s.ending.token with newlineBefore := newline || s.ending.token.newlineBefore } }⟩
  | t :: more => ⟨{ t with newlineBefore := newline || t.newlineBefore } :: more, s.ending⟩

/-- If no line ends there, nothing changes. -/
@[simp] theorem mark_false (s : TokenStream) : s.mark false = s := by
  obtain ⟨tokens, ending⟩ := s
  cases tokens <;> rfl

/-- Two marks are one. -/
@[simp] theorem mark_mark (a b : Bool) (s : TokenStream) :
    (s.mark b).mark a = s.mark (a || b) := by
  obtain ⟨tokens, ending⟩ := s
  cases tokens <;> simp [mark, Bool.or_assoc]

/-- Of the token before, lexing only asks whether a slash behind it starts a regular expression.
In one step it is asked once, and behind the first token the two are the same. -/
theorem lexFrom_congr {prev prev' : Option Token}
    (h : Lexeme.regexAllowed prev = Lexeme.regexAllowed prev') (here : Position) (rest : Text) :
    lexFrom prev here rest = lexFrom prev' here rest := by
  rw [lexFrom_eq prev, lexFrom_eq prev']
  simp only [Lexeme.first_congr h]

/-- Lexing sees a gap that is longer as the same gap at a later place. -/
theorem lexFrom_extend {prev : Option Token} {here : Position} {x rest : Text} (newline : Bool)
    (h : Gap.before (x ++ rest) = (Gap.before rest).extend x.length newline) :
    lexFrom prev here (x ++ rest) = (lexFrom prev (here.after x) rest).mark newline := by
  rw [lexFrom_eq prev here, lexFrom_eq prev (here.after x), h]
  simp only [Gap.extend, List.take_length_add_append, List.drop_length_add_append,
    Position.after_append]
  split
  · cases hd : rest.drop (Gap.before rest).length with
    | nil => rfl
    | cons g' more =>
      dsimp only
      cases hf : (Lexeme.first prev g' more).fault with
      | some fault => rfl
      | none =>
        dsimp only
        refine congrArg (cons _) ?_
        apply lexFrom_congr
        rfl
  · rfl

/-- A blank moves the place. -/
theorem lexFrom_blank {prev : Option Token} {here : Position} {g : Glyph} {rest : Text}
    (hb : Text.isBlank g.toChar = true) (hl : Text.isLineEnd g.toChar = false) :
    lexFrom prev here (g :: rest) = lexFrom prev (here.step g) rest := by
  rw [← List.singleton_append, lexFrom_extend false, mark_false]
  · rfl
  · simp [Gap.before, Gap.scan, Gap.Mode.next?, hb, hl]

/-- A line end is remembered for the next token. -/
theorem lexFrom_lineEnd {prev : Option Token} {here : Position} {g : Glyph} {rest : Text}
    (hl : Text.isLineEnd g.toChar = true) :
    lexFrom prev here (g :: rest) = (lexFrom prev (here.step g) rest).mark true := by
  rw [← List.singleton_append, lexFrom_extend true]
  · rfl
  · simp [Gap.before, Gap.scan, Gap.Mode.next?, hl]

/-- **A word becomes a token**, and what follows it is lexed behind it. -/
theorem lexFrom_word {prev : Option Token} {here : Position} {g : Glyph} {x u : Text}
    {kind : Token.Kind} (hb : Text.isBlank g.toChar = false) (hc : g.is '/' = false)
    (hw : Lexeme.first prev g (x ++ u) = .whole kind (g :: x).length) :
    lexFrom prev here (g :: x ++ u) =
      cons ⟨kind, g :: x, ⟨here, here.after (g :: x)⟩, false⟩
        (lexFrom (some ⟨kind, g :: x, ⟨here, here.after (g :: x)⟩, false⟩)
          (here.after (g :: x)) u) := by
  rw [lexFrom_eq, List.cons_append, Gap.before_eq_none hb hc]
  simp only [Gap.none, List.take_zero, Position.after_nil, List.drop_zero, if_true, hw,
    Lexeme.whole]
  simp only [List.length_cons, List.take_succ_cons, List.take_left, Nat.add_sub_cancel,
    List.drop_left]
  rfl

end TokenStream

namespace Lexeme

/-! ## Identifiers and punctuators

What is read at a glyph is decided by the glyph: a letter or an escape starts an identifier, a
digit a number, a quote a string, and so on, and what starts none of these a punctuator. -/

/-- **The text of an identifier is read as an identifier** in front of whatever does not go on
with it. An escape that is cut off is read so at the end of the source. -/
theorem first_of_isName {prev : Option Token} {g : Glyph} {x u : Text}
    (h : IsName (u = []) (g :: x)) (hu : StopsName u) :
    first prev g (x ++ u) = .whole .ident (g :: x).length := by
  obtain ⟨g', rest, hx, hs⟩ := h.starts
  obtain ⟨rfl, rfl⟩ := List.cons.inj hx
  obtain ⟨m, hm, hd⟩ := h.scanned
  have hz : nameLength m u = 0 := by
    rcases hd with hd | rfl
    · exact nameLength_eq_zero hd hu
    · cases m <;> simp [nameLength]
  -- It starts with a letter, an escape, or `#` and a letter.
  rcases hs with hs | hs | ⟨hs, k, more, rfl, hk⟩
  · have hash : g.is '#' = false := is_eq_false_of_isStart hs (by decide)
    rw [nameBody, hash] at hm
    have := nameLength_append hm u
    simp only [Bool.false_eq_true, if_false, List.cons_append, hz] at this
    simp [first, hs, this]
  · have hash : g.is '#' = false := by
      simp only [Glyph.is, beq_iff_eq] at hs
      simp [Glyph.is, hs]
    rw [nameBody, hash] at hm
    have := nameLength_append hm u
    simp only [Bool.false_eq_true, if_false, List.cons_append, hz] at this
    simp [first, hs, this]
  · have hg : g.toChar = '#' := by simpa [Glyph.is] using hs
    have hst : isStart g.toChar = false := by rw [hg]; decide
    have hbs : g.is '\\' = false := by simp [Glyph.is, hg]
    rw [nameBody, hs] at hm
    have := nameLength_append hm u
    simp only [if_true, List.cons_append, hz] at this
    simp [first, hst, hbs, hs, hk, this, Nat.add_comm]

/-- The gap before an identifier is empty. -/
theorem IsName.not_gap {cut : Prop} {g : Glyph} {x : Text} (h : IsName cut (g :: x)) :
    Text.isBlank g.toChar = false ∧ g.is '/' = false := by
  obtain ⟨g', rest, hx, hs⟩ := h.starts
  obtain ⟨rfl, rfl⟩ := List.cons.inj hx
  rcases hs with hs | hs | ⟨hs, -⟩
  · exact ⟨Text.isBlank_of_isStart hs, is_eq_false_of_isStart hs (by decide)⟩
  all_goals
    have hg := beq_iff_eq.1 hs
    rw [Glyph.is, hg]
    decide

/-- Whether a character starts nothing but a punctuator, and is no blank. -/
def isMark (c : Char) : Bool :=
  !isStart c && !Text.isBlank c && !c.isDigit
    && !(["\\", "#", "\"", "'", "\x60", "/"].any (fun s => s.toList == [c]))

/-- **A mark is read as a punctuator**, a point only if no digit follows it. -/
theorem first_of_isMark {prev : Option Token} {c : Char} (hc : isMark c = true) {rest : Text}
    (hd : c = '.' → rest.head?.any (fun h => h.toChar.isDigit) = false) :
    first prev (.char c) rest = .whole .punct (punctuatorLength (.char c :: rest)) := by
  simp only [isMark, Bool.and_eq_true, Bool.not_eq_true', List.any_cons, List.any_nil,
    Bool.or_false, Bool.or_eq_false_iff] at hc
  obtain ⟨⟨⟨hs, -⟩, hn⟩, h₁, h₂, h₃, h₄, h₅, h₆⟩ := hc
  have hne : ∀ {d : Char}, ((String.singleton d).toList == [c]) = false →
      (Glyph.char c).is d = false := by
    intro d h
    rw [Glyph.is, Glyph.toChar_char, beq_eq_false_iff_ne]
    rintro rfl
    simp at h
  have hdot : ((Glyph.char c).is '.' && rest.head?.any (fun h => h.toChar.isDigit)) = false := by
    by_cases h : c = '.'
    · simp [hd h]
    · simp [Glyph.is, h]
  unfold first
  rw [Glyph.toChar_char, hs, hn, hdot, hne (d := '\\') h₁, hne (d := '#') h₂, hne (d := '"') h₃,
    hne (d := '\'') h₄, hne (d := '\x60') h₅, hne (d := '/') h₆]
  rfl

/-- The characters that can be the second of a punctuator. -/
def seconds : List Char := ['.', '=', '*', '&', '|', '?', '>', '+', '-']

/-- Whether a glyph can be the second of a punctuator. -/
def extendsMark (g : Glyph) : Bool := seconds.contains g.toChar

/-- No punctuator goes on with a text. -/
def StopsMark (u : Text) : Prop := ∀ g ∈ u.head?, extendsMark g = false

/-- Whether a mark goes on is asked of the first glyph. -/
@[simp] theorem stopsMark_cons {g : Glyph} {u : Text} :
    StopsMark (g :: u) ↔ extendsMark g = false := by
  simp [StopsMark]

/-- The characters with which no punctuator of more than one character starts. -/
def solos : List Char := ['>', '[', ']', '(', ')', ',', ':', ';', '\x7b', '\x7d']

/-- No punctuator goes on with an identifier, and no number either. -/
theorem IsName.stopsMark {cut : Prop} {x : Text} (h : IsName cut x) (u : Text) :
    StopsMark (x ++ u) ∧ (x ++ u).head?.any (fun g => g.toChar.isDigit) = false := by
  have key : seconds.all (fun c => !isStart c) = true := by decide
  obtain ⟨g, rest, rfl, hs⟩ := h.starts
  simp only [List.cons_append, stopsMark_cons, List.head?_cons, Option.any_some]
  rcases hs with hs | hs | ⟨hs, -⟩
  · refine ⟨Bool.eq_false_iff.2 fun hg => ?_, isDigit_of_isStart hs⟩
    have := List.all_eq_true.1 key g.toChar (List.contains_iff_mem.1 hg)
    rw [hs] at this
    cases this
  · have hg : g.toChar = '\\' := by simpa [Glyph.is] using hs
    rw [extendsMark, hg]
    decide
  · have hg : g.toChar = '#' := by simpa [Glyph.is] using hs
    rw [extendsMark, hg]
    decide

/-- A punctuator that stands at the beginning of a text of at least one glyph goes on behind that
glyph with one of `seconds`, and does not start with one of `solos`. -/
theorem not_isPrefixOf_of_mem_punctuators {p : String}
    (hp : p ∈ punctuators) {d : Char} {u : Text}
    (h : StopsMark u ∨ d ∈ solos) : (Text.ofString p).isPrefixOf (.char d :: u) = false := by
  -- All punctuators are looked at, by their first two glyphs.
  have key : punctuators.all (fun p => p.toList.head?.any (fun a => !solos.contains a) &&
      p.toList.tail.head?.any seconds.contains) = true := by decide
  have hk := List.all_eq_true.1 key p hp
  obtain ⟨a, b, r, hl⟩ : ∃ a b r, p.toList = a :: b :: r := by
    cases hl : p.toList with
    | nil => rw [hl] at hk; cases hk
    | cons a l =>
      cases l with
      | nil => rw [hl, Bool.and_eq_true] at hk; cases hk.2
      | cons b r => exact ⟨a, b, r, rfl⟩
  rw [hl, Bool.and_eq_true] at hk
  have hfirst : solos.contains a = false := by simpa using hk.1
  rcases h with hu | hd
  · cases u with
    | nil => simp [Text.ofString, hl, List.isPrefixOf]
    | cons g u =>
      have : g ≠ .char b := by
        rintro rfl
        exact absurd ((stopsMark_cons.1 hu).symm.trans hk.2) Bool.false_ne_true
      simp [Text.ofString, hl, List.isPrefixOf, this.symm]
  · have : a ≠ d := by
      rintro rfl
      exact absurd (hfirst.symm.trans (List.contains_iff_mem.2 hd)) Bool.false_ne_true
    simp [Text.ofString, hl, List.isPrefixOf, this]

/-- **A mark is one glyph long** if it starts no longer punctuator, or if none goes on behind
it. -/
theorem punctuatorLength_eq_one {d : Char} {u : Text} (h : StopsMark u ∨ d ∈ solos) :
    punctuatorLength (.char d :: u) = 1 := by
  have hn : punctuators.find? (fun p => (Text.ofString p).isPrefixOf (.char d :: u)) = none := by
    rw [List.find?_eq_none]
    intro p hp
    rw [not_isPrefixOf_of_mem_punctuators hp h]
    exact Bool.false_ne_true
  rw [punctuatorLength, hn]

/-- An arrow is a mark of two glyphs. -/
theorem punctuatorLength_arrow (u : Text) :
    punctuatorLength (.char '=' :: .char '>' :: u) = 2 := rfl

end Lexeme

/-! ## Words and the texts that spell them

The grammar looks at kind, text and line end of a token and at nothing else. -/

/-- What the grammar sees of a token. -/
structure Word where
  /-- What it is. -/
  kind : Token.Kind
  /-- Its text. -/
  text : Text
  /-- Whether a line ends before it. -/
  newlineBefore : Bool
deriving DecidableEq

/-- The word of a token. -/
def Token.word (t : Token) : Word := ⟨t.kind, t.text, t.newlineBefore⟩

/-- A word as a token without a place. -/
def Word.token (w : Word) : Token := ⟨w.kind, w.text, .unset, w.newlineBefore⟩

/-- The word of a token without a place is the word. -/
@[simp] theorem Word.word_token (w : Word) : w.token.word = w := rfl

/-- An identifier on the same line as the token before. -/
def Word.name (x : Text) : Word := ⟨.ident, x, false⟩

/-- A punctuator on the same line as the token before. -/
def Word.mark (s : String) : Word := ⟨.punct, Text.ofString s, false⟩

/-- In front of `u`, the text `s` spells the words `ws`. Before the first of them a line has
ended if `before` says so, and before what follows the last of them if `after` does. -/
def Cuts (before after : Bool) (s : Text) (ws : List Word) (u : Text) : Prop :=
  ∀ (prev : Option Token) (here : Position), ∃ (toks : List Token) (prev' : Option Token)
    (here' : Position), toks.map Token.word = ws ∧
      (TokenStream.lexFrom prev here (s ++ u)).mark before =
        ⟨toks ++ ((TokenStream.lexFrom prev' here' u).mark after).tokens,
          ((TokenStream.lexFrom prev' here' u).mark after).ending⟩

namespace Cuts

variable {a b c : Bool} {s t u x : Text} {v w : List Word}

/-- An empty text spells nothing. -/
theorem nil : Cuts a a [] [] u := fun prev here => ⟨[], prev, here, rfl, rfl⟩

/-- **Texts that spell words side by side spell them all.** -/
theorem append (h : Cuts a b s v (t ++ u)) (h' : Cuts b c t w u) :
    Cuts a c (s ++ t) (v ++ w) u := by
  intro prev here
  obtain ⟨toks, prev₁, here₁, hw, hl⟩ := h prev here
  obtain ⟨toks', prev₂, here₂, hw', hl'⟩ := h' prev₁ here₁
  refine ⟨toks ++ toks', prev₂, here₂, by rw [List.map_append, hw, hw'], ?_⟩
  rw [List.append_assoc, hl, hl']
  simp only [List.append_assoc]

/-- Neither does a blank. -/
theorem blank : Cuts a a [.char ' '] [] u := by
  intro prev here
  exact ⟨[], prev, here.step (.char ' '), rfl, by
    rw [List.singleton_append, TokenStream.lexFrom_blank (by decide) (by decide)]; rfl⟩

/-- Nor the end of a line, but it is remembered. -/
theorem lineEnd : Cuts a true [.char '\n'] [] u := by
  intro prev here
  refine ⟨[], prev, here.step (.char '\n'), rfl, ?_⟩
  rw [List.singleton_append, TokenStream.lexFrom_lineEnd (by decide), TokenStream.mark_mark,
    Bool.or_true]
  rfl

/-- A text that is read as one word spells it. -/
theorem word {g : Glyph} {kind : Token.Kind} (hb : Text.isBlank g.toChar = false)
    (hc : g.is '/' = false)
    (hw : ∀ prev, Lexeme.first prev g (x ++ u) = .whole kind (g :: x).length) :
    Cuts a false (g :: x) [⟨kind, g :: x, a⟩] u := by
  intro prev here
  refine ⟨[⟨kind, g :: x, ⟨here, here.after (g :: x)⟩, a⟩],
    some ⟨kind, g :: x, ⟨here, here.after (g :: x)⟩, false⟩, here.after (g :: x), rfl, ?_⟩
  rw [TokenStream.lexFrom_word hb hc (hw prev), TokenStream.mark_false]
  simp [TokenStream.cons, TokenStream.mark]

/-- An identifier spells itself in front of what does not go on with it. -/
theorem name (h : Lexeme.IsName (u = []) x) (hu : Lexeme.StopsName u) :
    Cuts a false x [⟨.ident, x, a⟩] u := by
  obtain ⟨g, rest, rfl, -⟩ := h.starts
  exact word h.not_gap.1 h.not_gap.2 fun _ => Lexeme.first_of_isName h hu

/-- A punctuator spells itself in front of what does not make it longer. -/
theorem mark {d : Char} (hd : Lexeme.isMark d = true)
    (hdot : d = '.' → (x ++ u).head?.any (fun h => h.toChar.isDigit) = false)
    (hlen : Lexeme.punctuatorLength (.char d :: x ++ u) = x.length + 1) :
    Cuts a false (.char d :: x) [⟨.punct, .char d :: x, a⟩] u := by
  have hm := hd
  simp only [Lexeme.isMark, Bool.and_eq_true, Bool.not_eq_true', List.any_cons, List.any_nil,
    Bool.or_false, Bool.or_eq_false_iff] at hm
  refine word hm.1.1.2 ?_ fun prev => ?_
  · rw [Glyph.is, Glyph.toChar_char, beq_eq_false_iff_ne]
    rintro rfl
    exact absurd hd (by decide)
  · rw [Lexeme.first_of_isMark hd hdot]
    simp only [List.cons_append] at hlen
    rw [hlen]; rfl

/-- A mark of one glyph spells itself in front of what goes on with no punctuator. -/
theorem stopped {d : Char} (hd : Lexeme.isMark d = true) (hu : Lexeme.StopsMark u)
    (hdot : d = '.' → u.head?.any (fun h => h.toChar.isDigit) = false) :
    Cuts a false [.char d] [⟨.punct, [.char d], a⟩] u :=
  mark hd hdot (Lexeme.punctuatorLength_eq_one (.inl hu))

/-- A mark that starts no longer punctuator spells itself. -/
theorem solo {d : Char} (hd : d ∈ Lexeme.solos) :
    Cuts a false [.char d] [⟨.punct, [.char d], a⟩] u := by
  have key : Lexeme.solos.all (fun d => Lexeme.isMark d && d != '.') = true := by decide
  have hk := List.all_eq_true.1 key d hd
  rw [Bool.and_eq_true, bne_iff_ne] at hk
  exact mark hk.1 (fun h => absurd h hk.2) (Lexeme.punctuatorLength_eq_one (.inr hd))

/-! A text is cut from the left, piece by piece. -/

/-- A blank in front. -/
theorem cons_blank (h : Cuts a b t w u) : Cuts a b (.char ' ' :: t) w u :=
  append (s := [.char ' ']) (v := []) blank h

/-- The end of a line in front. -/
theorem cons_lineEnd (h : Cuts true b t w u) : Cuts a b (.char '\n' :: t) w u :=
  append (s := [.char '\n']) (v := []) lineEnd h

/-- A mark in front that stands by itself. -/
theorem cons_solo {d : Char} (hd : d ∈ Lexeme.solos) (h : Cuts false b t w u) :
    Cuts a b (.char d :: t) (⟨.punct, [.char d], a⟩ :: w) u :=
  append (s := [.char d]) (v := [_]) (solo hd) h

/-- A mark in front that the rest does not make longer. -/
theorem cons_stopped {d : Char} (hd : Lexeme.isMark d = true) (hs : Lexeme.StopsMark (t ++ u))
    (hdot : d = '.' → (t ++ u).head?.any (fun h => h.toChar.isDigit) = false)
    (h : Cuts false b t w u) : Cuts a b (.char d :: t) (⟨.punct, [.char d], a⟩ :: w) u :=
  append (s := [.char d]) (v := [_]) (stopped hd hs hdot) h

/-- A name in front of something that does not go on with it. -/
theorem append_name {g : Glyph} (hx : Lexeme.IsName False x) (hg : Lexeme.continues g = false)
    (h : Cuts false b (g :: t) w u) : Cuts a b (x ++ g :: t) (⟨.ident, x, a⟩ :: w) u :=
  append (v := [_]) (name (hx.mono False.elim) (Lexeme.stopsName_cons.2 hg)) h

/-- An arrow. -/
theorem arrow : Cuts a false (Text.ofString "=>") [⟨.punct, Text.ofString "=>", a⟩] u :=
  mark (by decide) (fun h => absurd h (by decide)) (Lexeme.punctuatorLength_arrow u)

end Cuts

end Exemplar
