import Exemplar.Extract.Enumerations
import Exemplar.Proofs.Extract.Resolving
import Exemplar.Proofs.Grammar.Breakdown
import Exemplar.Proofs.Grammar.ClosedBrackets
import Exemplar.Proofs.Grammar.GroupScans
import Exemplar.Proofs.Grammar.Sources
import Exemplar.Proofs.Grammar.TokenPlaces
import Exemplar.Proofs.Token.Identifiers

/-!
# The members of enumerations

A member of an enumeration is reached with a point if its key is an identifier, and whether it
is one is decided on the text of the key, long after the source was lexed. The two agree: a text
is taken for an identifier exactly if lexing it gives one identifier, written without escapes.
So what reaches a member can be told from the token its key is written with (`Token.Accesses`).

That the parser keeps the text of this token is followed through the loops over statements and
members. Where a key is computed, a group in brackets is skipped, and what is kept is the piece
of the source from the one bracket to the other.
-/

namespace Exemplar

open Exemplar.Lexeme Exemplar.Text.Identifier Exemplar.Tree

variable {enum m y : Text} {g q q' : Glyph}

/-! ## Identifiers

Both tests go through the characters of a text. They are written for different purposes and
treat two things differently, a stray byte and the underscore, but neither makes a difference:
the replacement character is no letter, and the underscore is a mark that continues an
identifier. -/

/-- **What counts as an identifier** is a text of letters, as the lexer knows them: no letter or
mark is read for a stray byte, and `_` is a mark. -/
theorem isIdentifierName_eq (m : Text) : isIdentifierName m = isLetters m := by
  have hnone : isLetter Glyph.replacement = false ∧
      isLetterOrMark Glyph.replacement = false := by decide +kernel
  have hstray {f : Char → Bool} (hf : f Glyph.replacement = false) (g : Glyph) :
      (!g.is Glyph.replacement && f g.toChar) = f g.toChar := by
    cases hg : g.is Glyph.replacement with
    | false => rfl
    | true => rw [beq_iff_eq.1 hg, hf]; rfl
  -- So the two tests agree on the first glyph.
  have hstart (g : Glyph) :
      (g.is '$' || g.is '_' || (!g.is Glyph.replacement && isLetter g.toChar))
      = isStart g.toChar := by
    rw [hstray hnone.1, isStart, Glyph.is, Glyph.is, Bool.or_comm (g.toChar == '$')]
  -- And on every other.
  have hcontinue (g : Glyph) :
      (g.is '$' || g.is '_' || (!g.is Glyph.replacement && isLetterOrMark g.toChar))
      = isContinue g.toChar := by
    rw [hstray hnone.2, isContinue, Glyph.is, Bool.or_assoc]
    cases hg : g.is '_' with
    | false => rfl
    | true => rw [beq_iff_eq.1 hg]; rfl
  cases m with
  | nil => rfl
  | cons g rest => simp only [isIdentifierName, allContinue, isLetters, hstart, hcontinue]

/-- **Both agree on what an identifier is**: a text counts as one exactly if it lexes to one,
which is written without escapes and does not start with `#`. -/
theorem isIdentifierName_iff (m : Text) :
    isIdentifierName m = true ↔ m.IsOneName ∧ m.IsPlain := by
  rw [isIdentifierName_eq, isLetters_iff]

/-! ## What reaches a member

The text of a key is looked at from its first glyph: a quote, a bracket, the start of a name, or
something else, as in a number. -/

/-- A text between two quotes of one kind is quoted. -/
theorem isQuoted_quotes (hq : q.is '"' = true ∨ q.is '\'' = true)
    (hq' : q'.is q.toChar = true) (y : Text) :
    isQuoted (q :: (y ++ [q'])) = true := by
  have hlast : (y ++ [q']).getLast?.any (fun l => l.is q.toChar) = true := by
    rw [List.getLast?_concat]; exact hq'
  have hne : y ++ [q'] ≠ [] := by simp
  obtain ⟨k, z, hz⟩ := List.exists_cons_of_ne_nil hne
  rw [hz] at hlast ⊢
  rw [isQuoted, hlast, Bool.and_true, Bool.or_eq_true]
  exact hq.symm

/-- A text that starts with no quote is not. -/
theorem isQuoted_cons (hq : g.is '"' = false) (hq' : g.is '\'' = false) (y : Text) :
    isQuoted (g :: y) = false := by
  cases y with
  | nil => rfl
  | cons k y => rw [isQuoted, hq, hq']; rfl

/-- Neither does it start with a bracket if its first glyph is none. -/
theorem isPrefixOf_bracket (hg : g.is '[' = false) (y : Text) :
    (Text.ofString "[").isPrefixOf (g :: y) = false := by
  show (Glyph.char '[' == g && _) = false
  rw [Bool.and_eq_false_iff, beq_eq_false_iff_ne]
  left
  rintro rfl
  cases hg

/-- A member whose key is an identifier stands behind a point. -/
theorem memberAccess_of_isLetters (h : isLetters m = true) :
    memberAccess enum m = enum ++ Text.ofString "." ++ m := by
  cases m with
  | nil => cases h
  | cons g y =>
    have hg : isStart g.toChar = true := by
      rw [isLetters, Bool.and_eq_true] at h
      exact h.1
    have hquoted := isQuoted_cons (is_eq_false_of_isStart hg (by decide))
      (is_eq_false_of_isStart hg (by decide)) y
    simp [memberAccess, hquoted, isIdentifierName_eq, h]

/-- A key that is a string is looked at without its quotes. -/
theorem memberAccess_quotes (hq : q.is '"' = true ∨ q.is '\'' = true)
    (hq' : q'.is q.toChar = true) (y : Text) :
    memberAccess enum (q :: (y ++ [q'])) =
      if isIdentifierName y then enum ++ Text.ofString "." ++ y
      else enum ++ Text.ofString "[" ++ (q :: (y ++ [q'])) ++ Text.ofString "]" := by
  have hbracket : q.is '[' = false :=
    hq.elim (is_eq_false · (by decide)) (is_eq_false · (by decide))
  have hinner : unquoted (q :: (y ++ [q'])) = y := List.dropLast_concat
  rw [memberAccess, isQuoted_quotes hq hq', if_pos rfl, hinner, isPrefixOf_bracket hbracket]
  rfl

/-- A key that starts with neither a letter nor a quote nor a bracket stands in brackets. -/
theorem memberAccess_of_not_isStart (hstart : isStart g.toChar = false) (hq : g.is '"' = false)
    (hq' : g.is '\'' = false) (hb : g.is '[' = false) (y : Text) :
    memberAccess enum (g :: y) = enum ++ Text.ofString "[" ++ (g :: y) ++ Text.ofString "]" := by
  have hquoted := isQuoted_cons hq hq' y
  have hbracket := isPrefixOf_bracket hb y
  simp [memberAccess, hquoted, hbracket, isIdentifierName_eq, isLetters, hstart]

/-- A key in brackets stands behind the name of the enumeration. -/
theorem memberAccess_bracket (y : Text) :
    memberAccess enum (Text.ofString "[" ++ y) = enum ++ (Text.ofString "[" ++ y) := by
  have hquoted : isQuoted (.char '[' :: y) = false := isQuoted_cons (by decide) (by decide) y
  have hname : isIdentifierName (.char '[' :: y) = false := by
    rw [isIdentifierName_eq, isLetters]
    exact Bool.and_eq_false_iff.2 (.inl (by decide))
  have hprefix : (Text.ofString "[").isPrefixOf (.char '[' :: y) = true := by
    simp [Text.ofString]
  show memberAccess enum (.char '[' :: y) = enum ++ (.char '[' :: y)
  simp [memberAccess, hquoted, hname, hprefix]

/-- **What reaches a member of an enumeration**, by the token its key is written with: the key
is the text of the token or, where it is computed, starts with it. -/
inductive Token.Accesses (enum : Text) (t : Token) : Text → Text → Prop
  /-- An identifier stands behind a point. -/
  | identifier (hk : t.kind = .ident) :
      Accesses enum t t.text (enum ++ Text.ofString "." ++ t.text)
  /-- So does what stands between quotes, if it is an identifier. -/
  | quoted {q q' : Glyph} {y : Text} (hk : t.kind = .string)
      (hx : t.text = q :: (y ++ [q'])) (hy : y.IsOneName)
    (hplain : y.IsPlain) : Accesses enum t t.text (enum ++ Text.ofString "." ++ y)
  /-- Any other string stands in brackets, with its quotes. -/
  | string {q q' : Glyph} {y : Text} (hk : t.kind = .string) (hx : t.text = q :: (y ++ [q']))
    (hy : ¬(y.IsOneName ∧ y.IsPlain)) :
    Accesses enum t t.text (enum ++ Text.ofString "[" ++ t.text ++ Text.ofString "]")
  /-- So does a number. -/
  | number (hk : t.kind = .number) :
    Accesses enum t t.text (enum ++ Text.ofString "[" ++ t.text ++ Text.ofString "]")
  /-- A computed key has its brackets already. -/
  | computed {y : Text} (hb : t.is "[" = true) :
    Accesses enum t (Text.ofString "[" ++ y ++ Text.ofString "]")
      (enum ++ (Text.ofString "[" ++ y ++ Text.ofString "]"))

/-- How the key of a member is written: it is a token that may stand there, or a group in
brackets. -/
inductive Token.Writes (t : Token) : Text → Prop
  /-- The key is a token. -/
  | token (hk : t.kind = .ident ∨ t.kind = .string ∨ t.kind = .number) : Writes t t.text
  /-- The key is computed. -/
  | computed {y : Text} (hb : t.is "[" = true) :
      Writes t (Text.ofString "[" ++ y ++ Text.ofString "]")

/-- **A member is reached as the token of its key tells**, if that holds no escape. -/
theorem Token.Writes.accesses {t : Token} {source : Text} (h : t.Writes m) (hm : m.IsPlain)
    (ht : t ∈ (TokenStream.lex source).tokens) : t.Accesses enum m (memberAccess enum m) := by
  cases h with
  | token hk =>
    -- An identifier, a string or a number.
    obtain hk | hk | hk := hk
    · obtain ⟨front, more, hsplit⟩ := List.append_of_mem ht
      have hname :=
        ((TokenStream.regular_lexFrom none .start source).tokens hsplit).name (beq_iff_eq.2 hk)
      rw [memberAccess_of_isLetters (isLetters_of_isName hname hm)]
      exact .identifier hk
    · obtain ⟨q, y, q', hx, hq, hq'⟩ := TokenStream.exists_text_of_string ht hk
      have haccess : memberAccess enum (q :: (y ++ [q'])) = _ := memberAccess_quotes hq hq' y
      rw [← hx] at haccess
      rw [haccess]
      split
      · rename_i hy
        rw [isIdentifierName_iff] at hy
        exact .quoted hk hx hy.1 hy.2
      · rename_i hy
        rw [isIdentifierName_iff] at hy
        exact .string hk hx hy
    · obtain ⟨g, x, hx, hg⟩ := TokenStream.exists_text_of_number ht hk
      have haccess : memberAccess enum (g :: x) = _ :=
        memberAccess_of_not_isStart (isStart_of_isDigit hg)
        (is_eq_false_of_isDigit hg (by decide) (by decide))
        (is_eq_false_of_isDigit hg (by decide) (by decide))
        (is_eq_false_of_isDigit hg (by decide) (by decide)) x
      rw [← hx] at haccess
      rw [haccess]
      exact .number hk
  | computed hb =>
    rw [List.append_assoc, memberAccess_bracket, ← List.append_assoc]
    exact .computed hb

/-! ## How the keys are read

What the rule for a list answers, its items have answered, each at a place on the way. So what
is known of a member wherever it is read is known of all members of an enumeration. -/

namespace Parser

variable {α : Type} {c c' : Cursor}

/-- What a loop lists, one of its rounds has answered. -/
theorem exists_round_of_collectUpTo {next : Parser (Option α)} [Moves next]
    {n : Nat} {as : List α} {a : α}
    (hc : c.Visited) (h : collectUpTo next n c = .ok (as, c')) (ha : a ∈ as) :
    ∃ d d', d.Visited ∧ d.source = c.source ∧ next d = .ok (some a, d') := by
  induction n generalizing c as with
  | zero => cases h
  | succ n ih =>
    obtain ⟨m, hm, ⟨rfl, -⟩ | ⟨b, bs, c₁, rfl, hround, hmore⟩⟩ := collectUpTo_eq_ok h
    · exact absurd ha List.not_mem_nil
    cases hm
    rcases List.mem_cons.1 ha with rfl | ha
    · exact ⟨c, c₁, hc, rfl, hround⟩
    · obtain ⟨d, d', hd, hsource, hnext⟩ := ih (hc.of_ok hround) hmore ha
      exact ⟨d, d', hd, hsource.trans (Moves.reaches_of_ok hround).source, hnext⟩

/-- What a list with commas holds, its items have answered. -/
theorem exists_item_of_commaList {closer : String} {item : Parser α}
    [Moves item] {as : List α} {a : α}
    (hc : c.Visited) (h : commaList closer item c = .ok (as, c')) (ha : a ∈ as) :
    ∃ d d', d.Visited ∧ d.source = c.source ∧ item d = .ok (a, d') := by
  unfold commaList at h
  rw [is_bind, ite_run] at h
  split at h
  · obtain ⟨rfl, -⟩ := pure_eq_ok.1 h
    cases ha
  obtain ⟨b, c₁, hfirst, h⟩ := bind_eq_ok.1 h
  obtain ⟨bs, c₂, hmore, h⟩ := bind_eq_ok.1 h
  obtain ⟨rfl, -⟩ := pure_eq_ok.1 h
  rcases List.mem_cons.1 ha with rfl | ha
  · exact ⟨c, c₁, hc, rfl, hfirst⟩
  · obtain ⟨d, d', hd, hsource, hround⟩ := exists_round_of_collectUpTo (hc.of_ok hfirst) hmore ha
    obtain ⟨d₁, hcomma, hitem⟩ := itemBefore_eq_some hround
    exact ⟨d₁, d', hd.of_ok hcomma, ((Moves.reaches_of_ok hcomma).source.trans hsource).trans
      (Moves.reaches_of_ok hfirst).source, hitem⟩

/-- What is kept of a computed key reaches from its opening bracket to the one that closes it. -/
theorem computedKey_inv {d : Cursor} {t : Token} {more : List Token} (hc : c.Visited)
    (hr : c.rest = t :: more)
    (hb : t.is "[" = true) (ho : t.isOpener = true) (hgroup : skipGroup c = .ok ((), d))
    (h : sourceFrom t.start d = .ok (m, c')) : t.Writes m := by
  obtain ⟨g, rest, p, hg, hisGroup, hp, rfl⟩ := exists_group_of_skipGroup hr ho hgroup
  rw [sourceFrom_run] at h
  split at h
  · cases h
  cases h
  cases hisGroup with
  | @mk o e inner _ _ htext _ =>
    rw [← List.cons_append, List.getLast?_concat] at hp
    cases hp
    rw [hr, List.cons_append, List.append_assoc, List.singleton_append] at hg
    obtain ⟨rfl, -⟩ := List.cons.inj hg
    -- The piece starts with the bracket at the one end and stops with the one at the other.
    obtain ⟨y, hy⟩ := hc.exists_slice (hr.trans hg)
    have hx : t.text = Text.ofString "[" := by
      rw [Token.is, Bool.and_eq_true, beq_iff_eq] at hb
      exact hb.2
    have hcloser : t.closer = Text.ofString "]" := by rw [Token.closer, hx]; rfl
    show t.Writes (c.source.slice t.start.offset p.stop.offset)
    rw [hy, htext, hx, hcloser, ← List.append_assoc]
    exact .computed hb

/-- **The key of a member is what the current token writes.** -/
theorem enumMemberName_inv (hc : c.Visited) (h : enumMemberName c = .ok (m, c')) :
    c.current ∈ c.rest ∧ c.current.Writes m := by
  rw [enumMemberName, here_bind, current_bind, ite_run] at h
  -- The key is a token that may stand there, or else it is in brackets.
  split at h
  · rename_i hkind
    have hkinds : c.current.kind = .ident ∨ c.current.kind = .string ∨
        c.current.kind = .number := by
      simpa [Token.isIdent, or_assoc] using hkind
    have hne : c.rest ≠ [] :=
      hc.rest_ne_nil (by obtain hk | hk | hk := hkinds <;> rw [Token.isEof, hk] <;> rfl)
    obtain ⟨t, c₁, hadvance, h⟩ := bind_eq_ok.1 h
    obtain ⟨rfl, -⟩ := pure_eq_ok.1 h
    obtain ⟨more, hr, -⟩ := advance_inv hne hadvance
    rw [Cursor.current_of_cons hr] at hkinds ⊢
    exact ⟨hr ▸ List.mem_cons_self, .token hkinds⟩
  rw [ite_run] at h
  split at h
  · rename_i hb
    obtain ⟨t, more, hr⟩ := List.exists_cons_of_ne_nil (hc.rest_ne_nil (Token.isEof_of_is hb))
    have ho := hc.isOpener_of_is (by decide) hb
    obtain ⟨_, c₁, hgroup, h⟩ := bind_eq_ok.1 h
    rw [Cursor.current_of_cons hr] at ho hb h ⊢
    exact ⟨hr ▸ List.mem_cons_self, computedKey_inv hc hr hb ho hgroup h⟩
  · cases h

end Parser

/-- The members of a statement that is an enumeration start with tokens of the source, which
write their keys. -/
def Tree.Statement.KeysIn (source : Text) : Statement → Prop
  | .enumDecl d => ∀ k ∈ d.members, ∃ t ∈ (TokenStream.lex source).tokens, t.start
      = k.span.start ∧ t.Writes k.name
  | _ => True

namespace Parser

variable {c c' : Cursor} {start : Position}

theorem enumMember_inv {k : EnumMember} (hc : c.Visited) (h : enumMember c = .ok (k, c')) :
    ∃ t ∈ (TokenStream.lex c.source).tokens, t.start = k.span.start ∧ t.Writes k.name := by
  rw [enumMember, here_bind] at h
  obtain ⟨name, c₁, hname, h⟩ := bind_eq_ok.1 h
  obtain ⟨value, c₂, -, h⟩ := bind_eq_ok.1 h
  rw [spanFrom_bind] at h
  obtain ⟨rfl, -⟩ := pure_eq_ok.1 h
  obtain ⟨hmem, hwrites⟩ := enumMemberName_inv hc hname
  exact ⟨c.current, hc.suffix.subset hmem, rfl, hwrites⟩

theorem enumDecl_inv {modifiers : Modifiers} {s : Statement} (hc : c.Visited)
    (h : enumDecl start modifiers c = .ok (s, c')) : s.KeysIn c.source := by
  obtain ⟨_, c₁, hword, h⟩ := bind_eq_ok.1 h
  obtain ⟨name, c₂, hname, h⟩ := bind_eq_ok.1 h
  obtain ⟨_, c₃, hbrace, h⟩ := bind_eq_ok.1 h
  obtain ⟨found, c₄, hfound, h⟩ := bind_eq_ok.1 h
  obtain ⟨_, c₅, -, h⟩ := bind_eq_ok.1 h
  rw [spanFrom_bind] at h
  obtain ⟨rfl, -⟩ := pure_eq_ok.1 h
  have hreach := ((Moves.reaches_of_ok hword).trans (Moves.reaches_of_ok hname)).trans
    (Moves.reaches_of_ok hbrace)
  intro k hk
  obtain ⟨d, d', hd, hsource, hmember⟩ :=
    exists_item_of_commaList (((hc.of_ok hword).of_ok hname).of_ok hbrace) hfound hk
  rw [← hreach.source, ← hsource]
  exact enumMember_inv hd hmember

theorem keysIn_statementFrom {first : Text} {s : Statement} (hc : c.Visited)
    (h : statementFrom start first c = .ok (s, c')) : s.KeysIn c.source := by
  obtain ⟨modifiers, d, hpass, h⟩ := formParser_of_statementFrom h
  cases s with
  | enumDecl e =>
    rw [← hpass.reaches.source]
    exact enumDecl_inv (hc.of_passes hpass) h
  | _ => trivial

theorem keysIn_nextStatement {s : Statement} (hc : c.Visited)
    (h : nextStatement c = .ok (some (some s), c')) :
    s.KeysIn c.source := by
  obtain ⟨_, c₁, c₂, h₁, h₂, h₃⟩ := statementFrom_of_nextStatement h
  rw [← ((Moves.reaches_of_ok h₁).trans (Moves.reaches_of_ok h₂)).source]
  exact keysIn_statementFrom ((hc.of_ok h₁).of_ok h₂) h₃

end Parser

/-- **The keys of enumerations stand in the source** that was parsed. -/
theorem Tree.SourceUnit.keysIn_of_parse {name : String} {source : Text} {u : SourceUnit}
    (h : SourceUnit.parse name source = .ok u) : ∀ s ∈ u.statements, s.KeysIn source := by
  obtain ⟨hnil, -, found, c', hrounds, -, rfl⟩ := Parser.unit_eq h
  intro s hs
  obtain ⟨o, ho, rfl⟩ := List.mem_filterMap.1 hs
  obtain ⟨d, d', hd, hsource, hround⟩ :=
    Parser.exists_round_of_collectUpTo (Parser.visited_startOf hnil) hrounds ho
  have hkeys := Parser.keysIn_nextStatement hd hround
  rw [hsource] at hkeys
  exact hkeys

/-! ## Enumerations of a unit

The entry of an enumeration is made from its members, in their order. Where a name is used
twice, the later entry replaces the earlier one. -/

/-- **Enumerations are found as they are lexed.** A text counts as an identifier exactly if
lexing it gives one token in front of the end of the source, which is an identifier and covers
it, and no escape stands in it and no `#` in front. So in a unit that was parsed every
enumeration whose keys hold no escape and do not start with `#` has an entry, in which its
members are reached as the tokens of their keys tell, in their order. Of two enumerations with
one name the last is looked up. -/
theorem enums_agree_with_lex :
    (∀ m : Text, isIdentifierName m = true ↔ m.IsOneName ∧ m.IsPlain) ∧
    ∀ {name : String} {source : Text} {u : SourceUnit}, SourceUnit.parse name source = .ok u →
      ∀ d, Statement.enumDecl d ∈ u.statements → (∀ k ∈ d.members, k.name.IsPlain) →
        ∃ values, (d.name.text, values) ∈ u.enums ∧
          List.Forall₂
          (fun k v => ∃ t ∈ (TokenStream.lex source).tokens, t.start = k.span.start ∧
            t.Accesses d.name.text k.name v) d.members values ∧
          ∀ before after, u.statements = before ++ Statement.enumDecl d :: after →
            (∀ d', Statement.enumDecl d' ∈ after → d'.name.text ≠ d.name.text) →
            ∀ given : Tables, (u.tables given).enumValues? d.name.text =
              (given.enumValues? d.name.text).or (some values) := by
  refine ⟨isIdentifierName_iff, fun {name source u} h d hd hplain => ?_⟩
  refine ⟨d.entry.2, List.mem_filterMap.2 ⟨_, hd, rfl⟩, ?_,
    fun before after hu hlast given => ?_⟩
  · rw [EnumDecl.entry, List.forall₂_map_right_iff, List.forall₂_same]
    intro k hk
    obtain ⟨t, ht, hstart, hwrites⟩ := SourceUnit.keysIn_of_parse h _ hd k hk
    exact ⟨t, ht, hstart, hwrites.accesses (hplain k hk) ht⟩
  · rw [SourceUnit.enumValues?_tables, SourceUnit.lookup_enums hu hlast]

/-- An enumeration with a key of every kind. -/
theorem enums_agree_with_lex_kinds :
    ∃ u d, SourceUnit.parse "kinds.ts"
      (Text.ofString "enum E \x7b a, 'b', 'c d', 1, ['e'] \x7d") = .ok u ∧
      Statement.enumDecl d ∈ u.statements ∧
      List.Forall₂ (fun k v => ∃ t : Token,
        t.start = k.span.start ∧ t.Accesses d.name.text k.name v) d.members
        (["E.a", "E.b", "E['c d']", "E[1]", "E['e']"].map Text.ofString) := by
  have hany : (SourceUnit.parse "kinds.ts"
      (Text.ofString "enum E \x7b a, 'b', 'c d', 1, ['e'] \x7d")).toOption.any
      (fun u => u.enums == [(Text.ofString "E",
        ["E.a", "E.b", "E['c d']", "E[1]", "E['e']"].map Text.ofString)]
          && u.statements.any fun s =>
          match s with
          | .enumDecl d => decide (∀ k ∈ d.members, k.name.IsPlain)
          | _ => false) = true := by
    rw [Text.ofString_ofList]
    decide +kernel
  obtain ⟨u, hu, htest⟩ := Parser.exists_ok_of_any _ hany
  rw [Bool.and_eq_true, beq_iff_eq, List.any_eq_true] at htest
  obtain ⟨henums, s, hs, hplain⟩ := htest
  cases s with
  | enumDecl d =>
    obtain ⟨values, hvalues, hmembers, -⟩ :=
      enums_agree_with_lex.2 hu d hs (of_decide_eq_true hplain)
    rw [henums, List.mem_singleton, Prod.mk.injEq] at hvalues
    obtain ⟨-, rfl⟩ := hvalues
    exact ⟨u, d, hu, hs, hmembers.imp fun _ _ ⟨t, _, ht⟩ => ⟨t, ht⟩⟩
  | _ => cases hplain

end Exemplar
