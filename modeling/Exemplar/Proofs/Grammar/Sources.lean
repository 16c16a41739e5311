import Exemplar.Proofs.Grammar.Answers
import Exemplar.Proofs.Grammar.Moves
import Exemplar.Proofs.Grammar.WordReadings

/-!
# Running a parser on a source

A parser runs on a source from its first token. What it can meet there is known: the tokens of a
source are regular, and a parser that comes to the end of them has made sure that nothing is
left open behind. In the other direction, a source whose text is known piece by piece is a
cursor that faces the words of these pieces.

Here the runs of a source are brought into the form in which they are used elsewhere. A unit
that is accepted is a run of the loop over statements that has come to the end (`unit_eq`), and
a type that is accepted is one of the rule for types (`type_eq_ok`). A statement was read by the
rule for its form, whichever tests came before (`formParser_of_statementFrom`), so what is to be
shown of statements can be shown form by form.
-/

namespace Exemplar

open Exemplar.Parser Exemplar.Tree

/-- The tokens ahead are those of a source in which nothing is left open. -/
structure Cursor.Regular (c : Cursor) : Prop where
  /-- The tokens end with the source. -/
  clean : c.ending.Clean
  /-- Each token is regular before those behind it. -/
  tokens : ∀ {s : List Token} {t : Token} {more : List Token},
    c.rest = s ++ t :: more → t.Regular more

namespace Cursor.Regular

variable {c c' : Cursor} {t : Token} {more : List Token}

/-- Further on in a source it is the same. -/
theorem of_suffix (h : c.Regular) (hr : c'.rest <:+ c.rest) (he : c'.ending = c.ending) :
    c'.Regular := by
  obtain ⟨front, hf⟩ := hr
  refine ⟨he ▸ h.clean, fun {front' t more} hr' => ?_⟩
  refine h.tokens (s := front ++ front') ?_
  rw [← hf, hr', List.append_assoc]

/-- Behind a run the tokens are still regular. -/
theorem of_passes (h : c.Regular) (hc : c.Passes c') : c'.Regular :=
  h.of_suffix hc.reaches.suffix hc.reaches.ending

/-- In particular behind a run that succeeds. -/
theorem of_ok {α : Type} {p : Parser α} [Moves p] {a : α} (h : c.Regular)
    (hp : p c = .ok (a, c')) : c'.Regular :=
  h.of_passes (Moves.passes_of_ok hp)

/-- Behind one token. -/
theorem past (h : c.Regular) (hr : c.rest = t :: more) : (c.past t more).Regular :=
  h.of_suffix (by rw [hr]; exact List.suffix_cons _ _) rfl

/-- The next token is regular before those behind it. -/
theorem head (h : c.Regular) (hr : c.rest = t :: more) : t.Regular more :=
  h.tokens (s := []) hr

end Cursor.Regular

namespace Parser

variable {α : Type}

/-- A parser that succeeds on a source succeeds from its first token, and nothing is left open
in a source without tokens. In a source without tokens nothing is consumed, so there the parser
that runs a source asks by itself whether something is left open. -/
theorem run_eq_ok {p : Parser α} {source : Text} {a : α} (h : run p source = .ok a) :
    ((TokenStream.lex source).tokens = [] → (TokenStream.lex source).ending.fault = none) ∧
      ∃ c', p (startOf source) = .ok (a, c') := by
  have h' : ((if (TokenStream.lex source).tokens.isEmpty = true then (do reachEnd; p) else p :
      Parser α) (startOf source) >>= fun r => (pure r.1 : Except Halt α)) = .ok a := h
  cases hr : (if (TokenStream.lex source).tokens.isEmpty = true then (do reachEnd; p) else p :
      Parser α) (startOf source) with
  | error e => rw [hr] at h'; cases h'
  | ok r =>
    rw [hr] at h'
    cases h'
    rw [ite_run] at hr
    split at hr
    · obtain ⟨_, c₁, h₁, h₂⟩ := bind_eq_ok.1 hr
      obtain ⟨hf, rfl⟩ := reachEnd_eq_ok h₁
      exact ⟨fun _ => hf, r.2, h₂⟩
    · rename_i hne
      refine ⟨fun hnil => ?_, r.2, hr⟩
      rw [hnil] at hne
      exact absurd rfl hne

/-- A parser that succeeds from the first token of a source in which nothing is left open
succeeds on the source. -/
theorem run_of_ok {p : Parser α} {source : Text} {a : α} {c' : Cursor}
    (hf : (TokenStream.lex source).ending.fault = none)
    (h : p (startOf source) = .ok (a, c')) : run p source = .ok a := by
  have hr : (if (TokenStream.lex source).tokens.isEmpty = true then (do reachEnd; p) else p :
      Parser α) (startOf source) = .ok (a, c') := by
    rw [ite_run]
    split
    · rw [bind_of_ok (reachEnd_run (c := startOf source) hf)]; exact h
    · exact h
  show ((if (TokenStream.lex source).tokens.isEmpty = true then (do reachEnd; p) else p :
      Parser α) (startOf source) >>= fun r => (pure r.1 : Except Halt α)) = .ok a
  rw [hr]; rfl

/-- **A parser that comes to the end of a source has read regular tokens**, and all of them. -/
theorem regular_startOf {p : Parser α} [Moves p] {source : Text} {a : α} {c' : Cursor}
    (hnil : (TokenStream.lex source).tokens = [] → (TokenStream.lex source).ending.fault = none)
    (h : p (startOf source) = .ok (a, c')) (he : c'.current.isEof = true) :
    (startOf source).Regular ∧ c'.rest = [] := by
  have hreg : (TokenStream.lex source).Regular := TokenStream.regular_lexFrom none .start source
  -- A token that is left would be the current one, and no token is the end.
  have hrest : c'.rest = [] := by
    cases hr : c'.rest with
    | nil => rfl
    | cons t more =>
      obtain ⟨front, hf⟩ := Moves.suffix_of_ok h
      rw [hr] at hf
      have := (hreg.tokens hf.symm).not_eof
      rw [Cursor.current_of_cons hr, this] at he
      cases he
  -- The end was reached, and who reaches it has asked what is left open there.
  have hfault : (TokenStream.lex source).ending.fault = none := by
    rcases Moves.fault_of_ok h hrest with hs | hf
    · exact hnil hs
    · exact hf
  exact ⟨⟨hreg.ending hfault, fun h => hreg.tokens h⟩, hrest⟩

/-- No statement is left where the source ends. -/
theorem nextStatement_none {c c' : Cursor} (h : nextStatement c = .ok (none, c')) :
    c' = c ∧ c.current.isEof = true := by
  unfold nextStatement at h
  rw [isEof_bind, ite_run] at h
  split at h
  · exact ⟨(pure_eq_ok.1 h).2.symm, by assumption⟩
  · obtain ⟨x, c₁, -, h₂⟩ := bind_eq_ok.1 h
    cases (pure_eq_ok.1 h₂).1

/-- A statement is read behind its decorators, where no semicolon stands. -/
theorem statementFrom_of_nextStatement {c c' : Cursor} {s : Statement}
    (h : nextStatement c = .ok (some (some s), c')) :
    ∃ u c₁ c₂, got ";" c = .ok (false, c₁) ∧ skipDecorators c₁ = .ok (u, c₂) ∧
      statementFrom c.current.start c₂.current.text c₂ = .ok (s, c') := by
  unfold nextStatement at h
  rw [isEof_bind, ite_run] at h
  split at h
  · cases (pure_eq_ok.1 h).1
  obtain ⟨o, c₃, h, hanswer⟩ := bind_eq_ok.1 h
  obtain ⟨ho, rfl⟩ := pure_eq_ok.1 hanswer
  cases ho
  unfold statement? at h
  rw [here_bind] at h
  obtain ⟨semicolon, c₁, hsemicolon, h⟩ := bind_eq_ok.1 h
  cases semicolon with
  | true => cases h
  | false =>
    obtain ⟨u, c₂, hdecorators, h⟩ := bind_eq_ok.1 h
    rw [current_bind] at h
    obtain ⟨s', c₄, hstatement, h⟩ := bind_eq_ok.1 h
    obtain ⟨hs, rfl⟩ := pure_eq_ok.1 h
    cases hs
    exact ⟨u, c₁, c₂, hsemicolon, hdecorators, hstatement⟩

/-! ## The forms of statements

A statement is chosen by its first words, test by test. Only the rule for its form can have
answered it, because each rule answers statements of one form. -/

/-- The parser of the statements that have the form of a given one. -/
def formParser (start : Position) (modifiers : Modifiers) (first : Text) :
    Statement → Parser Statement
  | .interfaceDecl _ => interfaceDecl start modifiers
  | .classDecl _ => classDecl start modifiers
  | .variables _ => variableDecl start modifiers
  | .enumDecl _ => enumDecl start modifiers
  | .functionDecl _ => functionDecl start modifiers
  | .typeAlias _ => typeAlias start modifiers
  | .other _ _ => otherStatement start first

section Forms

variable {start : Position} {modifiers : Modifiers} {first : Text}
  {c c₁ c' : Cursor} {s : Statement}

/-- A parser builds statements of one form, and it is the parser of this form. -/
abbrev IsFormParser (start : Position) (modifiers : Modifiers) (first : Text)
    (p : Parser Statement) :
    Prop :=
  Builds (fun s => formParser start modifiers first s = p) p

instance (d : InterfaceDecl) :
    Fact (formParser start modifiers first (.interfaceDecl d) = interfaceDecl start modifiers) :=
  ⟨rfl⟩

instance (d : ClassDecl) :
    Fact (formParser start modifiers first (.classDecl d) = classDecl start modifiers) := ⟨rfl⟩

instance (d : VariableDecl) :
    Fact (formParser start modifiers first (.variables d) = variableDecl start modifiers) :=
  ⟨rfl⟩

instance (d : EnumDecl) :
    Fact (formParser start modifiers first (.enumDecl d) = enumDecl start modifiers) := ⟨rfl⟩

instance (d : FunctionDecl) :
    Fact (formParser start modifiers first (.functionDecl d) = functionDecl start modifiers) :=
  ⟨rfl⟩

instance (d : AliasDecl) :
    Fact (formParser start modifiers first (.typeAlias d) = typeAlias start modifiers) := ⟨rfl⟩

instance (s : Span) (x : Text) :
    Fact (formParser start modifiers first (.other s x) = otherStatement start first) := ⟨rfl⟩

/-- What such a parser answers is what the parser of the form answers there. -/
theorem formParser_eq_ok {p : Parser Statement} [hp : IsFormParser start modifiers first p]
    (h : p c = .ok (s, c')) : formParser start modifiers first s c = .ok (s, c') := by
  have heq : formParser start modifiers first s = p := hp.answers h
  rw [heq, h]

/-- Where a test decides between a form and the rest, the form was read or the rest is left. -/
theorem form_or_rest (start : Position) (modifiers : Modifiers)
    (first : Text) {test : Parser Bool}
    [Moves test] {p rest : Parser Statement} [IsFormParser start modifiers first p]
    (hc : c.Passes c₁)
    (h : (test >>= fun b => if b = true then p else rest) c₁ = .ok (s, c')) :
    (∃ d, c.Passes d ∧ formParser start modifiers first s d = .ok (s, c')) ∨
      ∃ d, c.Passes d ∧ rest d = .ok (s, c') := by
  obtain ⟨b, d, htest, h⟩ := bind_eq_ok.1 h
  have hd := hc.trans (Moves.passes_of_ok htest)
  cases b with
  | true => exact .inl ⟨d, hd, formParser_eq_ok (p := p) h⟩
  | false => exact .inr ⟨d, hd, h⟩

/-- **A statement was read by the parser of its form**, behind its modifiers. The tests are gone
through one by one: either the form of the test was read, or the rest is left for the next
test. -/
theorem formParser_of_statementFrom (h : statementFrom start first c = .ok (s, c')) :
    ∃ modifiers d, c.Passes d ∧ formParser start modifiers first s d = .ok (s, c') := by
  obtain ⟨modifiers, c₁, hmodifiers, h⟩ := bind_eq_ok.1 h
  have hc₁ := Moves.passes_of_ok hmodifiers
  refine ⟨modifiers, ?_⟩
  obtain hform | ⟨c₂, hc₂, h⟩ := form_or_rest start modifiers first hc₁ h
  · exact hform
  obtain hform | ⟨c₃, hc₃, h⟩ := form_or_rest start modifiers first hc₂ h
  · exact hform
  obtain hform | ⟨c₄, hc₄, h⟩ := form_or_rest start modifiers first hc₃ h
  · exact hform
  rw [is_bind, is_bind, ite_run] at h
  split at h
  · exact ⟨c₄, hc₄, formParser_eq_ok h⟩
  obtain hform | ⟨c₅, hc₅, h⟩ := form_or_rest start modifiers first hc₄ h
  · exact hform
  obtain hform | ⟨c₆, hc₆, h⟩ := form_or_rest start modifiers first hc₅ h
  · exact hform
  obtain hform | ⟨c₇, hc₇, h⟩ := form_or_rest start modifiers first hc₆ h
  · exact hform
  exact ⟨c₇, hc₇, formParser_eq_ok h⟩

/-- What holds of every statement of a form by itself, or of what the parser of this form
answers, holds of the statements of a source. -/
theorem Answers.statementFrom {P : Statement → Prop}
    (h : ∀ modifiers s, P s ∨ Answers (formParser start modifiers first s) P) :
    Answers (statementFrom start first) P := fun {c c' s} hrun => by
  obtain ⟨modifiers, d, -, hform⟩ := formParser_of_statementFrom hrun
  exact (h modifiers s).elim id fun hanswers => hanswers hform

end Forms

/-! ## Units

The loop over statements ends where no statement is left, which is the end of the source. -/

/-- **A unit is read by reading its statements to the end of the source**, and it reaches from
the first token to the last. -/
theorem unit_eq {name : String} {source : Text} {u : SourceUnit}
    (h : SourceUnit.parse name source = .ok u) :
    ((TokenStream.lex source).tokens = [] → (TokenStream.lex source).ending.fault = none) ∧
      (startOf source).Regular ∧
      ∃ found c', collect nextStatement (startOf source) = .ok (found, c') ∧
        c'.rest = [] ∧
        u = ⟨⟨(startOf source).current.start, c'.lastStop⟩, name, found.filterMap id⟩ := by
  obtain ⟨hnil, c', h'⟩ := run_eq_ok h
  unfold sourceUnit at h'
  rw [here_bind] at h'
  obtain ⟨found, c₁, h₁, h₂⟩ := bind_eq_ok.1 h'
  rw [spanFrom_bind] at h₂
  obtain ⟨rfl, rfl⟩ := pure_eq_ok.1 h₂
  obtain ⟨c₃, hlast⟩ := last_of_collectUpTo _ h₁
  obtain ⟨rfl, he⟩ := nextStatement_none hlast
  obtain ⟨hreg, hrest⟩ := regular_startOf hnil h₁ he
  exact ⟨hnil, hreg, found, c₁, h₁, hrest, rfl⟩

/-- The same without the places. -/
theorem unit_eq_ok {name : String} {source : Text} {u : SourceUnit}
    (h : SourceUnit.parse name source = .ok u) :
    (startOf source).Regular ∧
    ∃ found c', collect nextStatement (startOf source) = .ok (found, c') ∧
      c'.rest = [] ∧ u.statements = found.filterMap id := by
  obtain ⟨-, hreg, found, c', h₁, hrest, rfl⟩ := unit_eq h
  exact ⟨hreg, found, c', h₁, hrest, rfl⟩

/-- What is tested of the answer of a reader holds of an answer. -/
theorem exists_ok_of_any {ε : Type} {r : Except ε α} (test : α → Bool)
    (h : r.toOption.any test = true) : ∃ a, r = .ok a ∧ test a = true := by
  cases r with
  | error e => cases h
  | ok a => exact ⟨a, rfl, h⟩

/-- **A type is read by reading it to the end of the source.** -/
theorem type_eq_ok {source : Text} {t : TypeExpr} (h : TypeExpr.parse source = .ok t) :
    (startOf source).Regular ∧ ∃ c', typeExpr (startOf source) = .ok (t, c') ∧ c'.rest = [] := by
  obtain ⟨hnil, c', h'⟩ := run_eq_ok h
  obtain ⟨n, c₁, h₁, h₂⟩ := bind_eq_ok.1 h'
  rw [isEof_bind, ite_run] at h₂
  split at h₂
  · rename_i he
    obtain ⟨rfl, rfl⟩ := pure_eq_ok.1 h₂
    obtain ⟨hreg, hrest⟩ := regular_startOf hnil h₁ he
    exact ⟨hreg, c₁, h₁, hrest⟩
  · cases h₂

/-- A source whose whole text spells words is faced with these words. A text that is cut into
words whatever comes behind it has these words as tokens, and the end behind them. -/
theorem faces_startOf {source : Text} {ws : List Word} {after : Bool}
    (h : Cuts false after source ws []) :
    (startOf source).ending.Clean ∧
      ∀ {F : List Word}, .eof after ∈ F → (startOf source).Faces ws F [] := by
  obtain ⟨toks, prev, here, hw, hl⟩ := h none .start
  have hnil : TokenStream.lexFrom prev here [] = TokenStream.atEnd here false none := by
    rw [TokenStream.lexFrom_eq]; rfl
  rw [List.append_nil, TokenStream.mark_false, hnil] at hl
  have htokens : (startOf source).rest = toks := by
    show (TokenStream.lexFrom none .start source).tokens = toks
    rw [hl]; exact List.append_nil toks
  have hending : (startOf source).ending
      = ((TokenStream.atEnd here false none).mark after).ending := by
    show (TokenStream.lexFrom none .start source).ending = _
    rw [hl]
  refine ⟨by rw [hending]; exact ⟨rfl, rfl, rfl⟩,
    fun {F} hF => ⟨?_, fun t ht => ?_, ⟨toks, ?_, hw⟩, ?_⟩⟩
  · rw [hending]; exact ⟨rfl, rfl, rfl⟩
  · obtain ⟨front, more, hsplit⟩ := List.append_of_mem ht
    exact ((TokenStream.regular_lexFrom none .start source).tokens hsplit).not_eof
  · rw [htokens, List.append_nil]
  · rw [hending]
    show Word.eof (after || false) ∈ F
    rwa [Bool.or_false]

/-- A source that spells words is read as a type if its words are. The levels of nesting that a
run has are as many as its tokens, so it is enough to read the words with so many. -/
theorem parse_of_reads {source : Text} {ws : List Word} {after : Bool} {P : TypeExpr → Prop}
    (hcuts : Cuts false after source ws [])
    (h : ∀ k, ws.length ≤ k → Reads (anyType (nested k)) ws [.eof after] P) :
    ∃ t, TypeExpr.parse source = .ok t ∧ P t := by
  obtain ⟨hclean, hfaces⟩ := faces_startOf hcuts
  have hface : (startOf source).Faces ws [.eof after] [] := hfaces (.head _)
  have hlen : ws.length ≤ (startOf source).rest.length := by
    obtain ⟨toks, hr, hw⟩ := hface.split
    exact Nat.le_of_eq (by rw [hr, List.append_nil, ← hw, List.length_map])
  obtain ⟨t, c', hp, hr, he, ht⟩ := h _ hlen _ _ hface
  have heof : c'.current.isEof = true := by
    rw [Cursor.current_of_nil hr, he, Token.isEof, hclean.kind]; rfl
  have hwhole : wholeType (startOf source) = .ok (t, c') := by
    show (typeExpr >>= fun t => isEof >>= fun b =>
      if b = true then (return t) else fail .trailingToken) (startOf source) = .ok (t, c')
    rw [bind_of_ok (show typeExpr (startOf source) = .ok (t, c') from hp), isEof_bind, heof]; rfl
  exact ⟨t, run_of_ok hclean.fault hwhole, ht⟩

end Parser

end Exemplar
