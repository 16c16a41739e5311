import Exemplar.Proofs.Grammar.PartPlacement
import Exemplar.Proofs.Token.Seams
import Mathlib.Data.List.Infix

/-!
# The tokens of two parts

A source that is put together from two parts at the end of a line has the tokens of the first
part and then those of the second, which have moved: they stand as many bytes later as the first
part and what is put between the two take, and a line ends before them. What a slash means at
the beginning of the second part is decided by the token before it, so it has to be known that
this token is one that allows no other reading: a semicolon, or any token if the part starts
with a word.

A scan for a closing bracket does not see any of this, and a semicolon does not stop it either.
So what one part leaves open and the other one closes can be said of the tokens the two have
alone.

That is the condition under which two parts can be put together. A scan that looks for a closing
parenthesis or angle bracket may run over the end of the first part, and if it finds one in the
second, the first part is read otherwise than alone. Two scans matter: that for a parenthesis,
which asks whether a function starts, and that for an angle bracket, which asks whether type
arguments start. A semicolon blocks the second one, so before a semicolon only parentheses
count.
-/

namespace Exemplar

open Exemplar.Brackets

/-! ## What is closed across two parts

In both definitions the bracket is one that is open at the end of the first part: it is looked
for in the rest of this part, in vain, and found if the second part is put behind it. -/

namespace Brackets

/-- A parenthesis that `front` leaves open is closed in `back`. -/
def ParenthesisAcross (front back : List Token) : Prop :=
  ∃ l ∈ front.tails, l.head?.any (·.is "(") = true ∧ matching 0 l = none ∧
    (matching 0 (l ++ back)).isSome = true

/-- An angle bracket that `front` leaves open is closed in `back`. -/
def AngleAcross (front back : List Token) : Prop :=
  ∃ l ∈ front.tails, l.head?.any (·.is "<") = true ∧ matchingAngle 0 0 l = .ranOut ∧
    (matchingAngle 0 0 (l ++ back)).found?.isSome = true

instance (front back : List Token) : Decidable (ParenthesisAcross front back) :=
  inferInstanceAs (Decidable (∃ l ∈ front.tails, _))

instance (front back : List Token) : Decidable (AngleAcross front back) :=
  inferInstanceAs (Decidable (∃ l ∈ front.tails, _))

variable {b b' l : List Token} {s : Token}

/-- Of what comes behind, looking for a bracket only asks whether it is found there. -/
theorem isSome_matching_append
    (h : ∀ depth, (matching depth b).isSome = (matching depth b').isSome)
    (depth : Nat) : (matching depth (l ++ b)).isSome = (matching depth (l ++ b')).isSome := by
  induction l generalizing depth with
  | nil => exact h depth
  | cons t l ih =>
    rcases matching_step depth t with hstop | ⟨d, hgo⟩
    · rw [List.cons_append, List.cons_append, hstop, hstop]
    · rw [List.cons_append, List.cons_append, hgo, hgo,
        Option.isSome_map, Option.isSome_map, ih]

/-- What is not closed across two parts stays open in front of the second one. -/
theorem matching_append_eq_none {front : List Token} {t : Token} {more : List Token}
    (h : ¬ParenthesisAcross front b) (hs : t :: more <:+ front) (ht : t.is "(" = true)
    (hnone : matching 0 (t :: more) = none)
    (hb : ∀ depth, (matching depth b').isSome = (matching depth b).isSome) :
    matching 0 (t :: more ++ b') = none := by
  rw [← Option.not_isSome_iff_eq_none, isSome_matching_append hb]
  exact fun hsome => h ⟨t :: more, (List.mem_tails _ _).2 hs, ht, hnone, hsome⟩

/-- The same for angle brackets, where the whole outcome of the scan counts. -/
theorem matchingAngle_append_congr
    (h : ∀ angles groups, matchingAngle angles groups b = matchingAngle angles groups b')
    (angles groups : Nat) :
    matchingAngle angles groups (l ++ b) = matchingAngle angles groups (l ++ b') := by
  induction l generalizing angles groups with
  | nil => exact h angles groups
  | cons t l ih =>
    rcases matchingAngle_step angles groups t with ⟨x, -, hstop⟩ | ⟨a, g, hgo⟩
    · rw [List.cons_append, List.cons_append, hstop, hstop]
    · rw [List.cons_append, List.cons_append, hgo, hgo, ih]

/-- An angle bracket that is not closed across two parts is not closed in the whole. -/
theorem matchingAngle_append_ne_found {front : List Token} {t : Token} {more : List Token}
    (h : ¬AngleAcross front b) (hs : t :: more <:+ front) (ht : t.is "<" = true)
    (hran : matchingAngle 0 0 (t :: more) = .ranOut)
    (hb : ∀ angles groups, matchingAngle angles groups b' = matchingAngle angles groups b)
    (i : Nat) :
    matchingAngle 0 0 (t :: more ++ b') ≠ .found i := by
  rw [matchingAngle_append_congr hb]
  exact fun hfound => h ⟨t :: more, (List.mem_tails _ _).2 hs, ht, hran, by rw [hfound]; rfl⟩

/-- A semicolon does not stop the search for a bracket. -/
theorem isSome_matching_semicolon (hs : s.IsSemicolon) (depth : Nat) :
    (matching depth (s :: b)).isSome = (matching depth b).isSome := by
  obtain ⟨kind, text, span, newline⟩ := s
  obtain ⟨rfl, rfl, rfl⟩ := hs
  exact Option.isSome_map

/-- A semicolon stops the search for an angle bracket. -/
theorem matchingAngle_semicolon (hs : s.IsSemicolon) {angles groups : Nat}
    (h : matchingAngle angles groups l = .ranOut) :
    matchingAngle angles groups (l ++ s :: b) = .blocked := by
  induction l generalizing angles groups with
  | nil =>
    obtain ⟨kind, text, span, newline⟩ := s
    obtain ⟨rfl, rfl, rfl⟩ := hs
    rw [List.nil_append, matchingAngle.eq_def]
    rfl
  | cons t l ih =>
    rcases matchingAngle_step angles groups t with ⟨x, hx, hstop⟩ | ⟨a, g, hgo⟩
    · rw [hstop] at h
      exact absurd h hx
    · rw [hgo] at h
      have hran : matchingAngle a g l = .ranOut := by
        cases hm : matchingAngle a g l with
        | ranOut => rfl
        | found i => rw [hm] at h; cases h
        | blocked => rw [hm] at h; cases h
      rw [List.cons_append, hgo, ih hran]
      rfl

/-- Where the tokens stand does not matter, nor whether a line ends before the first. -/
theorem matching_moved {s : TokenStream} {n : Nat}
    (h : List.Forall₂ (Token.Moved n) (s.mark true).tokens b) (depth : Nat) :
    matching depth b = matching depth s.tokens := by
  rw [← (sameBare_of_moved h).congr (matching_bare depth)]
  obtain ⟨tokens, ending⟩ := s
  cases tokens <;> rfl

/-- The same for angle brackets. -/
theorem matchingAngle_moved {s : TokenStream} {n : Nat}
    (h : List.Forall₂ (Token.Moved n) (s.mark true).tokens b) (angles groups : Nat) :
    matchingAngle angles groups b = matchingAngle angles groups s.tokens := by
  rw [← (sameBare_of_moved h).congr (matchingAngle_bare angles groups)]
  obtain ⟨tokens, ending⟩ := s
  cases tokens with
  | nil => rfl
  | cons t more => cases groups <;> rfl

end Brackets

/-! ## A text at another place

The tokens of the second part are those that it has alone, but for their places, and for the
line end before the first of them. All of them have moved by the same number of bytes. -/

namespace Lexeme

/-- How an identifier is read does not depend on the token before it. -/
theorem first_of_ident {prev : Option Token} {g : Glyph} {rest : Text}
    (h : (first prev g rest).kind = .ident) (prev' : Option Token) :
    first prev' g rest = first prev g rest := by
  have hslash (prev : Option Token) : (if g.is '/' && regexAllowed prev then
      delimited .regex (regexExtent false rest)
      else whole .punct (punctuatorLength (g :: rest))).kind ≠ .ident := by
    split
    · cases regexExtent false rest <;> nofun
    · nofun
  revert h
  unfold first
  split
  · exact fun _ => rfl
  split
  · exact fun _ => rfl
  split
  · exact fun _ => rfl
  split
  · exact fun _ => rfl
  split
  · exact fun _ => rfl
  · exact fun h => absurd h (hslash prev)

end Lexeme

/-- What a slash means does not depend on where the token before it stands. -/
theorem Token.Moved.regexAllowed_eq {n : Nat} {t u : Token} (h : t.Moved n u) :
    Lexeme.regexAllowed (some u) = Lexeme.regexAllowed (some t) := by
  obtain ⟨span, rfl⟩ := h.same.exists_span
  rfl

namespace TokenStream

variable {prev prev' : Option Token} {here here' : Position} {x y : Text} {n : Nat}

/-- A line end that is remembered for the first token is so on both sides. -/
theorem forall₂_moved_mark {s s' : TokenStream}
    (h : List.Forall₂ (Token.Moved n) s.tokens s'.tokens) (newline : Bool) :
    List.Forall₂ (Token.Moved n) (s.mark newline).tokens (s'.mark newline).tokens := by
  obtain ⟨tokens, ending⟩ := s
  obtain ⟨tokens', ending'⟩ := s'
  cases h with
  | nil => exact .nil
  | cons ht hmore =>
    obtain ⟨hsame, hstart, hstop⟩ := ht
    obtain ⟨span, rfl⟩ := hsame.exists_span
    exact .cons ⟨⟨rfl⟩, hstart, hstop⟩ hmore

@[simp] theorem mark_fault (newline : Bool) (s : TokenStream) :
    (s.mark newline).ending.fault = s.ending.fault := by
  obtain ⟨tokens, ending⟩ := s
  cases tokens <;> rfl

/-- A token at another place. -/
theorem moved_tokenAt (prev : Option Token) {start start' : Position}
    (h : start'.offset = start.offset + n) (newline : Bool) (g : Glyph) (more : Text) :
    (tokenAt prev start newline g more).Moved n (tokenAt prev start' newline g more) := by
  refine ⟨⟨rfl⟩, h, ?_⟩
  show (start'.after _).offset = (start.after _).offset + n
  rw [Position.offset_after, Position.offset_after, h]
  omega

/-- **A text has the same tokens wherever it stands**, and it ends alike. The induction is on
the length of the text. Behind each token, a regular expression is allowed in the one if it is
in the other, since the tokens are the same. -/
theorem lexFrom_all_moved (hprev : Lexeme.regexAllowed prev' = Lexeme.regexAllowed prev)
    (hhere : here'.offset = here.offset + n) (hf : (lexFrom prev here x).ending.fault = none) :
    List.Forall₂ (Token.Moved n) (lexFrom prev here x).all (lexFrom prev' here' x).all ∧
      (lexFrom prev' here' x).ending.fault = none := by
  induction hn : x.length using Nat.strongRecOn generalizing prev prev' here here' x with
  | _ k ih =>
    rw [lexFrom_congr hprev]
    have hstart : (here'.after (x.take (Gap.before x).length)).offset
        = (here.after (x.take (Gap.before x).length)).offset + n := by
      rw [Position.offset_after, Position.offset_after, hhere]
      omega
    obtain ⟨hc, ⟨hd, -⟩ | ⟨g, more, hd, hl⟩⟩ := lexFrom_cases hf
    · rw [lexFrom_of_gap hc hd, lexFrom_of_gap hc hd]
      refine ⟨.cons ⟨⟨rfl⟩, ?_, ?_⟩ .nil, rfl⟩ <;>
      · show (here'.after _).offset = (here.after _).offset + n
        rw [Position.offset_after, Position.offset_after, hhere, Nat.add_right_comm]
    · rw [lexFrom_of_token hc hd hl] at hf ⊢
      rw [lexFrom_of_token hc hd hl]
      have htoken := moved_tokenAt prev hstart (Gap.before x).newline g more
      obtain ⟨hmore, hfault⟩ :=
        ih _ (hn ▸ length_drop_lt hd _) htoken.regexAllowed_eq htoken.stop hf rfl
      exact ⟨.cons htoken hmore, hfault⟩

/-- Its tokens alone. -/
theorem lexFrom_moved (hprev : Lexeme.regexAllowed prev' = Lexeme.regexAllowed prev)
    (hhere : here'.offset = here.offset + n) (hf : (lexFrom prev here x).ending.fault = none) :
    List.Forall₂ (Token.Moved n) (lexFrom prev here x).tokens (lexFrom prev' here' x).tokens ∧
      (lexFrom prev' here' x).ending.fault = none := by
  obtain ⟨hall, hfault⟩ := lexFrom_all_moved hprev hhere hf
  have hlen := hall.length_eq
  simp only [all, List.length_append, List.length_singleton, Nat.add_right_cancel_iff] at hlen
  have htake := List.forall₂_take (lexFrom prev here x).tokens.length hall
  rw [all, all, List.take_left, hlen, List.take_left] at htake
  exact ⟨htake, hfault⟩

/-- Before a word it does not matter which token comes before. The word itself is read alike
behind any token, and the tokens behind it stand behind the word. -/
theorem lexFrom_of_ident {t : Token} {more : List Token}
    (hf : (lexFrom prev here x).ending.fault = none)
    (ht : (lexFrom prev here x).tokens = t :: more) (hk : t.kind = .ident)
    (prev' : Option Token) :
    lexFrom prev' here x = lexFrom prev here x := by
  obtain ⟨hc, ⟨-, hnil⟩ | ⟨g, rest, hd, hl⟩⟩ := lexFrom_cases hf
  · rw [ht] at hnil
    cases hnil
  · rw [lexFrom_of_token hc hd hl] at ht
    have hident : (Lexeme.first prev g rest).kind = .ident := by
      rw [← hk, ← (List.cons.inj ht).1]
      rfl
    have hfirst := Lexeme.first_of_ident hident prev'
    rw [lexFrom_of_token hc hd hl, lexFrom_of_token hc hd (hfirst ▸ hl),
      tokenAt, tokenAt, hfirst]

/-! ## Two parts

The end of a line separates the two, so the tokens of the whole are those of both. -/

/-- A token that ends an expression is no identifier. -/
theorem NotCut.of_isFinal {s : TokenStream} (h : ∃ t, s.tokens.getLast? = some t ∧ t.IsFinal) :
    s.NotCut := by
  obtain ⟨t, ht, hfinal⟩ := h
  intro u hu hk
  rw [ht] at hu
  cases hu
  rcases hfinal with hmem | hcloser
  · rw [hk] at hmem
    exact absurd hmem (by decide)
  · rw [Token.isCloser, hk] at hcloser
    cases hcloser

/-- Behind a part and a line end, lexing goes on behind the last token of the part, and the line
end is remembered. -/
theorem lex_behindLine (hx : (lex x).ending.fault = none) (hcut : (lex x).NotCut) (u : Text) :
    lex (x ++ u.behindLine) = append (lex x).tokens
      ((lexFrom (lex x).tokens.getLast? (Position.start.after (x ++ [Glyph.char '\n'])) u).mark
        true) := by
  have h := lexFrom_behindLine none .start x u hx hcut
  rwa [Option.or_none] at h

/-- A semicolon in front of the end of a line. -/
theorem lexFrom_semicolon (prev : Option Token) (here : Position) (y : Text) :
    ∃ s : Token, s.kind = .punct ∧ s.text = Text.ofString ";" ∧
      lexFrom prev here (.char ';' :: y.behindLine)
        = cons s ((lexFrom (some s) (here.after [.char ';', .char '\n']) y).mark true) := by
  have hfirst : Lexeme.first prev (.char ';') ([] ++ y.behindLine) = .whole .punct 1 := by
    rw [List.nil_append, Lexeme.first_of_isMark (by decide) (fun h => absurd h (by decide)),
      Lexeme.punctuatorLength_eq_one (.inr (by decide))]
  have hword : lexFrom prev here ([Glyph.char ';'] ++ y.behindLine) = _ :=
    lexFrom_word (by decide) (by decide) hfirst
  rw [lexFrom_lineEnd (by decide)] at hword
  exact ⟨_, rfl, rfl, hword⟩

/-- **The tokens of two parts with a semicolon on a line between them.** The semicolon stands
one byte behind the first part, and the second one two bytes further, which makes three. -/
theorem lex_behind_semicolon (hx : (lex x).ending.fault = none) (hcut : (lex x).NotCut)
    (hy : (lex y).ending.fault = none) :
    ∃ s back, (lex (x ++ Text.behindLine (.char ';' :: y.behindLine))).tokens
        = (lex x).tokens ++ s :: back ∧ s.IsSemicolon ∧
      List.Forall₂ (Token.Moved (x.byteSize + 3)) ((lex y).mark true).tokens back ∧
      (lex (x ++ Text.behindLine (.char ';' :: y.behindLine))).ending.fault = none := by
  obtain ⟨s, hk, htext, hs⟩ := lexFrom_semicolon (lex x).tokens.getLast?
    (Position.start.after (x ++ [Glyph.char '\n'])) y
  -- Behind a semicolon a slash means what it means at the beginning of a source.
  have hprev : Lexeme.regexAllowed (some s) = Lexeme.regexAllowed none := by
    obtain ⟨kind, text, span, newline⟩ := s
    cases hk
    cases htext
    rfl
  have hhere :
      ((Position.start.after (x ++ [Glyph.char '\n'])).after [.char ';', .char '\n']).offset
      = Position.start.offset + (x.byteSize + 3) := by
    rw [Position.offset_after, Position.offset_after, Text.byteSize_append]
    exact Nat.add_assoc _ _ _
  obtain ⟨hmoved, hfault⟩ := lexFrom_moved hprev hhere hy
  rw [lex_behindLine hx hcut, hs]
  refine ⟨{ s with newlineBefore := true }, _, rfl, ⟨hk, htext, rfl⟩,
    forall₂_moved_mark hmoved true, ?_⟩
  show ((lexFrom (some s) _ y).mark true).ending.fault = none
  rw [mark_fault, hfault]

/-- **The tokens of two parts with a line between them**, of which the second starts with a
word. -/
theorem lex_behind_line (hx : (lex x).ending.fault = none) (hcut : (lex x).NotCut)
    (hy : (lex y).ending.fault = none) {t : Token} {more : List Token}
    (ht : (lex y).tokens = t :: more) (hk : t.kind = .ident) :
    ∃ back, (lex (x ++ y.behindLine)).tokens = (lex x).tokens ++ back ∧
      List.Forall₂ (Token.Moved (x.byteSize + 1)) ((lex y).mark true).tokens back ∧
      (lex (x ++ y.behindLine)).ending.fault = none := by
  have hhere : (Position.start.after (x ++ [Glyph.char '\n'])).offset
      = Position.start.offset + (x.byteSize + 1) := by
    rw [Position.offset_after, Text.byteSize_append]
    rfl
  have hprev : lexFrom (lex x).tokens.getLast? .start y = lex y := lexFrom_of_ident hy ht hk _
  obtain ⟨hmoved, hfault⟩ := lexFrom_moved rfl hhere (hprev ▸ hy)
  rw [hprev] at hmoved
  rw [lex_behindLine hx hcut]
  refine ⟨_, rfl, forall₂_moved_mark hmoved true, ?_⟩
  show ((lexFrom _ _ y).mark true).ending.fault = none
  rw [mark_fault, hfault]

end TokenStream

/-- The word `export` at the beginning of the second part is on a new line in the whole. -/
theorem exists_export {s : TokenStream} {t : Token} {more back : List Token} {n : Nat}
    (ht : s.tokens = t :: more) (hk : t.kind = .ident) (hx : t.text = Text.ofString "export")
    (hback : List.Forall₂ (Token.Moved n) (s.mark true).tokens back) :
    ∃ t' back', back = t' :: back' ∧ t'.IsExport := by
  rw [TokenStream.mark, ht] at hback
  obtain ⟨t', back', hmoved, -, rfl⟩ := List.forall₂_cons_left_iff.1 hback
  obtain ⟨span, rfl⟩ := hmoved.same.exists_span
  exact ⟨_, back', rfl, hk, hx, rfl⟩

/-! ## What a part has to be like

The conditions under which a part is followed into the whole (`Placement.Fits`), for the two
ways to put parts together. -/

namespace Placement

variable {tokens back : List Token} {s : TokenStream} {t : Token} {m n : Nat}

/-- Before a semicolon no `export` comes next. -/
theorem not_exports_semicolon (ht : t.IsSemicolon) : ¬Exports ⟨m, t :: back⟩ := by
  rintro ⟨u, more, hu, hexport⟩
  cases hu
  have hk := hexport.kind
  rw [ht.kind] at hk
  cases hk

/-- A part before a semicolon. No angle bracket is closed behind it, for the scan is blocked
there. -/
theorem fits_semicolon (ht : t.IsSemicolon)
    (hback : List.Forall₂ (Token.Moved n) (s.mark true).tokens back)
    (hopen : ¬ParenthesisAcross tokens s.tokens) : Fits ⟨m, t :: back⟩ tokens where
  next := .inr ⟨t, back, rfl, .inl ht⟩
  closed hs hparen hnone := by
    refine matching_append_eq_none hopen hs hparen hnone fun depth => ?_
    rw [isSome_matching_semicolon ht, matching_moved hback]
  angles _ _ hran i := by rw [matchingAngle_semicolon ht hran]; nofun
  final hx := absurd hx (not_exports_semicolon ht)

/-- Before `export` no semicolon comes next. -/
theorem not_semicolon_export {rest : List Token} (ht : t.IsExport) :
    ¬∃ s : Token, s.IsSemicolon ∧ Placement.tail ⟨m, t :: back⟩ = s :: rest := by
  rintro ⟨s, hs, htail⟩
  cases htail
  have hnot : ¬Exports ⟨m, t :: back⟩ := not_exports_semicolon hs
  exact hnot ⟨t, back, rfl, ht⟩

/-- A part before `export`. Its last token can end a statement, which before a semicolon does
not matter. -/
theorem fits_export (ht : t.IsExport)
    (hback : List.Forall₂ (Token.Moved n) (s.mark true).tokens (t :: back))
    (hopen : ¬ParenthesisAcross tokens s.tokens) (hangle : ¬AngleAcross tokens s.tokens)
    (hfinal : ∃ u, tokens.getLast? = some u ∧ u.IsFinal) : Fits ⟨m, t :: back⟩ tokens where
  next := .inr ⟨t, back, rfl, .inr ht⟩
  closed hs hparen hnone :=
    matching_append_eq_none hopen hs hparen hnone fun depth => by rw [matching_moved hback]
  angles hs hless hran :=
    matchingAngle_append_ne_found hangle hs hless hran (matchingAngle_moved hback)
  final _ := hfinal

end Placement

end Exemplar
