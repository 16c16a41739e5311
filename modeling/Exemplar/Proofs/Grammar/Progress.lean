import Exemplar.Proofs.Grammar.VisitedPlaces

/-!
# Every round makes progress

A loop of the grammar runs a round until the round answers that it is over. Here it is shown of
every such round that it consumes a token whenever it goes on, at every place a run can come to.
Most rounds can be seen to do so by their form: they stand behind a word, or a rule in them
complains unless it consumes something. So what is needed is again a matter of how parsers are
put together. `Consumes` is said of a parser that never succeeds without consuming a token, and
`ConsumesAhead` of one that may do so only at the end of the source; a test is `Definite` if the
end does not pass it. What is left to do by hand are the rounds that look at the current token
themselves.

The place has to be one that a run can come to (`Visited`), for a rule that looks for a word
finds it in the token that stands for the end of the source as well, unless this is known to be
that end.

A parser that is put together consumes a token if one of its parts does and the others only move
on. Which part it is, the search for instances finds out: for a sequence there is an instance
for the left side and one for the right side, and both have low priority, so that instances for
a rule as a whole are tried first.
-/

namespace Exemplar.Parser

open Exemplar.Tree Exemplar.Brackets

variable {α β : Type} {c c' : Cursor}

-- The search for an instance is as deep as the rule is long.
set_option synthInstance.maxSize 100000

/-- A run that succeeds has consumed a token. There is no claim about a run that fails. -/
class Consumes (p : Parser α) : Prop where
  lt_of_ok : ∀ {c c' : Cursor} {a : α}, c.Visited → p c = .ok (a, c') →
    c'.rest.length < c.rest.length

/-- A run that succeeds has consumed a token if one was left. -/
class ConsumesAhead (p : Parser α) : Prop where
  lt_of_ok : ∀ {c c' : Cursor} {a : α}, c.Visited → c.rest ≠ [] → p c = .ok (a, c') →
    c'.rest.length < c.rest.length

/-- A test that is passed only where a token is left, or by consuming one. -/
class Definite (test : Parser Bool) : Prop where
  of_true : ∀ {c c' : Cursor}, c.Visited → test c = .ok (true, c') →
    c'.rest ≠ [] ∨ c'.rest.length < c.rest.length

/-- A round that goes on has consumed a token. -/
class Progress (next : Parser (Option α)) : Prop where
  lt_of_some : ∀ {c c' : Cursor} {a : α}, c.Visited → next c = .ok (some a, c') →
    c'.rest.length < c.rest.length

/-- A test on tokens that the end of a source does not pass. -/
class OnTokens (f : Token → Bool) : Prop where
  isEof_eq_false : ∀ {t : Token}, f t = true → t.isEof = false

/-- A run leaves no more tokens than there were. -/
theorem Moves.length_le {p : Parser α} [Moves p] {a : α} (h : p c = .ok (a, c')) :
    c'.rest.length ≤ c.rest.length :=
  (Moves.reaches_of_ok h).length_le

/-- To consume the current token leaves one less, if it is not the end. -/
theorem lt_of_advance {t : Token} (hr : c.rest ≠ []) (h : advance c = .ok (t, c')) :
    c'.rest.length < c.rest.length := by
  obtain ⟨more, hr, rfl⟩ := advance_inv hr h
  simp [hr]

/-! ## Consuming a token

A word that is asked for is there, and an identifier is. A group consists of its opening bracket
at least. -/

namespace Consumes

instance (priority := low) bind_left (p : Parser α) (f : α → Parser β) [Moves p] [Consumes p]
    [∀ a, Moves (f a)] : Consumes (p >>= f) where
  lt_of_ok hc h := by
    obtain ⟨a, c₁, h₁, h₂⟩ := bind_eq_ok.1 h
    exact Nat.lt_of_le_of_lt (Moves.length_le h₂) (lt_of_ok hc h₁)

instance (priority := low) bind_right (p : Parser α) (f : α → Parser β) [Moves p]
    [∀ a, Consumes (f a)] : Consumes (p >>= f) where
  lt_of_ok hc h := by
    obtain ⟨a, c₁, h₁, h₂⟩ := bind_eq_ok.1 h
    exact Nat.lt_of_lt_of_le (lt_of_ok (hc.of_ok h₁) h₂) (Moves.length_le h₁)

instance ite (P : Prop) [Decidable P] (p q : Parser α) [Consumes p] [Consumes q] :
    Consumes (if P then p else q) := by
  split <;> assumption

instance (x : Complaint) : Consumes (fail x : Parser α) where
  lt_of_ok _ h := by cases h

instance (w : String) : Consumes (expect w) where
  lt_of_ok hc h := by
    obtain ⟨hw, t, ht⟩ := expect_eq_ok h
    exact lt_of_advance (hc.rest_ne_nil (Token.isEof_of_is hw)) ht

instance : Consumes identifier where
  lt_of_ok {c c'} _ hc h := by
    have h : (if c.current.isIdent = true then (do let t ← advance; return ⟨t.span, t.text⟩)
      else fail .identifierExpected : Parser Identifier) c = .ok (_, c') := h
    rw [ite_run] at h
    split at h
    · rename_i hi
      obtain ⟨t, c₁, h₁, h₂⟩ := bind_eq_ok.1 h
      obtain ⟨-, rfl⟩ := pure_eq_ok.1 h₂
      exact lt_of_advance (hc.rest_ne_nil (Token.isEof_of_isIdent hi)) h₁
    · cases h

/-- A group has a bracket or token it starts with. A token that opens no group is a group by
itself. -/
theorem length_pos_of_scanGroup? {ts : List Token} {n : Nat}
    (h : scanGroup? ts = some (.closed n)) :
    0 < n := by
  cases ts with
  | nil => cases h
  | cons t more =>
    simp only [scanGroup?, Option.some.injEq] at h
    split at h
    · cases hs : scan t.closer [] more <;> simp [hs, Scan.next] at h
      omega
    split at h
    · cases h
    · cases h; exact Nat.one_pos

/-- Only a group that is closed is consumed; for the other outcomes of the scan there is a
complaint. -/
instance : Consumes skipGroup where
  lt_of_ok {c c'} _ _ h := by
    rw [skipGroup, get_bind] at h
    cases hscan : scanGroup? c.rest with
    | none => rw [hscan] at h; cases h
    | some found =>
      rw [hscan] at h
      cases found with
      | closed n =>
        obtain ⟨k, rfl⟩ := Nat.exists_eq_add_one.2 (length_pos_of_scanGroup? hscan)
        have hr : c.rest ≠ [] := by rintro hr; rw [hr] at hscan; cases hscan
        obtain ⟨t, c₁, h₁, h₂⟩ := bind_eq_ok.1 h
        exact Nat.lt_of_le_of_lt (Moves.length_le h₂) (lt_of_advance hr h₁)
      | mismatch n =>
        obtain ⟨_, c₁, -, h₂⟩ := bind_eq_ok.1 h
        cases h₂
      | unclosed closer =>
        obtain ⟨_, c₁, -, h₂⟩ := bind_eq_ok.1 h
        obtain ⟨_, c₂, -, h₃⟩ := bind_eq_ok.1 h₂
        cases h₃

end Consumes

/-! ## Consuming a token if one is left

Consuming whatever token comes next does nothing at the end of the source. So such a parser can
only be counted on where it is known that a token is left. -/

namespace ConsumesAhead

instance (priority := low) of_consumes (p : Parser α) [Consumes p] : ConsumesAhead p where
  lt_of_ok hc _ h := Consumes.lt_of_ok hc h

instance : ConsumesAhead advance where
  lt_of_ok _ hr h := lt_of_advance hr h

instance (priority := low) bind_left (p : Parser α) (f : α → Parser β)
    [Moves p] [ConsumesAhead p]
    [∀ a, Moves (f a)] : ConsumesAhead (p >>= f) where
  lt_of_ok hc hr h := by
    obtain ⟨a, c₁, h₁, h₂⟩ := bind_eq_ok.1 h
    exact Nat.lt_of_le_of_lt (Moves.length_le h₂) (lt_of_ok hc hr h₁)

/-- If the first part consumes nothing, the second part starts at the same place. -/
instance (priority := low) bind_right (p : Parser α) (f : α → Parser β) [Moves p]
    [∀ a, Moves (f a)] [∀ a, ConsumesAhead (f a)] : ConsumesAhead (p >>= f) where
  lt_of_ok {c c'} _ hc hr h := by
    obtain ⟨a, c₁, h₁, h₂⟩ := bind_eq_ok.1 h
    by_cases hlt : c₁.rest.length < c.rest.length
    · exact Nat.lt_of_le_of_lt (Moves.length_le h₂) hlt
    · obtain rfl := (Moves.reaches_of_ok h₁).eq_of_length_le (Nat.le_of_not_lt hlt)
      exact lt_of_ok hc hr h₂

/-- Behind a word that was consumed nothing more has to be. -/
instance got_bind (w : String) (f : Bool → Parser β) [∀ b, Moves (f b)]
    [ConsumesAhead (f false)] :
    ConsumesAhead (got w >>= f) where
  lt_of_ok {c c'} _ hc hr h := by
    obtain ⟨b, c₁, h₁, h₂⟩ := bind_eq_ok.1 h
    obtain ⟨-, ⟨rfl, rfl⟩ | ⟨rfl, t, ht⟩⟩ := got_eq_ok h₁
    · exact lt_of_ok hc hr h₂
    · exact Nat.lt_of_le_of_lt (Moves.length_le h₂) (lt_of_advance hr ht)

instance ite (P : Prop) [Decidable P] (p q : Parser α) [ConsumesAhead p] [ConsumesAhead q] :
    ConsumesAhead (if P then p else q) := by
  split <;> assumption

instance ite_true (p q : Parser α) [ConsumesAhead p] :
    ConsumesAhead (if true = true then p else q) := by
  rwa [if_pos rfl]

instance ite_false (p q : Parser α) [ConsumesAhead q] :
    ConsumesAhead (if false = true then p else q) := by
  rwa [if_neg Bool.false_ne_true]

instance advanceBy (n : Nat) : ConsumesAhead (advanceBy (n + 1)) := by
  unfold Parser.advanceBy; infer_instance

instance skipTypeArguments : ConsumesAhead skipTypeArguments := by
  unfold Parser.skipTypeArguments
  have hmoves : ∀ o : Option Nat, Moves (match o with
      | some i => do if (← peek (i + 1)).is "("
          then Parser.advanceBy (i + 1) else Parser.advanceBy 1
      | none => Parser.advanceBy 1) := fun o => by cases o <;> infer_instance
  exact @bind_right _ _ _ _ inferInstance hmoves fun o => by cases o <;> infer_instance

instance skipItem : ConsumesAhead skipItem := by unfold Parser.skipItem; infer_instance

end ConsumesAhead

/-! ## Tests

The end of the source is no word and no identifier, and a test that begins with one of these
does not pass it. -/

namespace OnTokens

instance (w : String) : OnTokens (fun t => t.is w) where
  isEof_eq_false h := Token.isEof_of_is h

instance : OnTokens (fun t => t.isIdent) where
  isEof_eq_false h := Token.isEof_of_isIdent h

instance or (f g : Token → Bool) [OnTokens f] [OnTokens g] : OnTokens (fun t => f t || g t) where
  isEof_eq_false h := ((Bool.or_eq_true _ _).mp h).elim isEof_eq_false isEof_eq_false

instance and (f g : Token → Bool) [OnTokens f] : OnTokens (fun t => f t && g t) where
  isEof_eq_false h := isEof_eq_false (f := f) (Bool.and_eq_true_iff.1 h).1

instance (ws : List String) : OnTokens (isWordOf ws) := by
  unfold isWordOf; infer_instance

instance : OnTokens continuesBase where
  isEof_eq_false {t} h := by
    rw [continuesBase, Bool.and_eq_true, Bool.and_eq_true] at h
    simpa using h.1.1

instance : OnTokens isTypeOperator := by
  unfold isTypeOperator; infer_instance

end OnTokens

namespace Definite

instance (w : String) : Definite (got w) where
  of_true {c c'} hc h := by
    obtain ⟨hw, ⟨h, -⟩ | ⟨-, t, ht⟩⟩ := got_eq_ok h
    · cases h
    · exact .inr (lt_of_advance (hc.rest_ne_nil (Token.isEof_of_is hw.symm)) ht)

instance (f g : Token → Bool) [OnTokens f] : Definite (ahead f g) where
  of_true {c c'} hc h := by
    obtain ⟨hf, t, h₁, -⟩ := ahead_eq_true h
    rw [← (peek_eq_ok.1 h₁).1]
    exact .inl (hc.rest_ne_nil (OnTokens.isEof_eq_false hf))

instance (f : Token → Bool) [OnTokens f] : Definite (do return f (← current)) where
  of_true {c c'} hc h := by
    obtain ⟨hf, rfl⟩ := pure_eq_ok.1 (current_bind (c := c) (fun t => pure (f t)) ▸ h)
    exact .inl (hc.rest_ne_nil (OnTokens.isEof_eq_false hf))

end Definite

/-! ## Rounds by their form

A round may answer that it is over without consuming anything. So of its branches only those
count that go on. -/

namespace Progress

instance : Progress (pure none : Parser (Option α)) where
  lt_of_some _ h := by cases h

instance (x : Complaint) : Progress (fail x : Parser (Option α)) where
  lt_of_some _ h := by cases h

instance (priority := low) bind_right (p : Parser α) (f : α → Parser (Option β)) [Moves p]
    [∀ a, Progress (f a)] : Progress (p >>= f) where
  lt_of_some hc h := by
    obtain ⟨a, c₁, h₁, h₂⟩ := bind_eq_ok.1 h
    exact Nat.lt_of_lt_of_le (lt_of_some (hc.of_ok h₁) h₂) (Moves.length_le h₁)

instance (priority := low) of_consumes (p : Parser (Option α)) [Consumes p] : Progress p where
  lt_of_some hc h := Consumes.lt_of_ok hc h

instance ite (P : Prop) [Decidable P] (p q : Parser (Option α)) [Progress p] [Progress q] :
    Progress (if P then p else q) := by
  split <;> assumption

instance ite_false (p q : Parser (Option α)) [Progress q] :
    Progress (if false = true then p else q) := by
  rwa [if_neg Bool.false_ne_true]

/-- A round that goes on behind a word has consumed the word. -/
instance got_bind (w : String) (f : Bool → Parser (Option α)) [∀ b, Moves (f b)]
    [Progress (f false)] : Progress (got w >>= f) where
  lt_of_some {c c'} _ hc h := by
    obtain ⟨b, c₁, h₁, h₂⟩ := bind_eq_ok.1 h
    cases b with
    | false => exact Nat.lt_of_lt_of_le (lt_of_some (hc.of_ok h₁) h₂) (Moves.length_le h₁)
    | true =>
      obtain ⟨hw, ⟨h, -⟩ | ⟨-, t, ht⟩⟩ := got_eq_ok h₁
      · cases h
      · have hr := hc.rest_ne_nil (Token.isEof_of_is hw.symm)
        exact Nat.lt_of_le_of_lt (Moves.length_le h₂) (lt_of_advance hr ht)

/-- A round that goes on behind a test has a token to consume. -/
theorem of_definite (test : Parser Bool) (f : Bool → Parser (Option α)) [Moves test]
    [Definite test] [∀ b, Moves (f b)] [ConsumesAhead (f true)] [Progress (f false)] :
    Progress (test >>= f) where
  lt_of_some {c c'} _ hc h := by
    obtain ⟨b, c₁, h₁, h₂⟩ := bind_eq_ok.1 h
    cases b with
    | false => exact Nat.lt_of_lt_of_le (lt_of_some (hc.of_ok h₁) h₂) (Moves.length_le h₁)
    | true =>
      rcases Definite.of_true hc h₁ with hr | hlt
      · exact Nat.lt_of_lt_of_le
          (ConsumesAhead.lt_of_ok (hc.of_ok h₁) hr h₂) (Moves.length_le h₁)
      · exact Nat.lt_of_le_of_lt (Moves.length_le h₂) hlt

/-! The rounds of the grammar that are of one of these forms. Those of a list stand behind a
separator. Those over modifiers, parts of a name and declarators stand behind a test that the
end of the source does not pass. -/

instance (separator : String) (item : Parser α) [Moves item] :
    Progress (itemBehind separator item) := by
  unfold itemBehind; infer_instance

instance (closer : String) (item : Parser α) [Moves item] :
    Progress (itemBefore closer item) := by
  unfold itemBefore; infer_instance

instance (test : Parser Bool) (body : Parser Unit) [Moves test] [Definite test] [Moves body]
    [ConsumesAhead body] : Progress (onceMore test body) := by
  unfold onceMore; exact of_definite _ _

instance (test : Parser Bool) [Moves test] [Definite test] : Progress (modifierWord test) := by
  unfold modifierWord; exact of_definite _ _

instance : Progress namePart := by
  unfold namePart; exact of_definite _ _

instance : Progress nextDeclarator := by
  unfold nextDeclarator; infer_instance

end Progress

/-! ## Rules that consume a token

By their form: a member starts with a name or a bracket, and a declaration consumes the word
that it is told by. -/

namespace Consumes

instance : Consumes entityName := by unfold entityName; infer_instance

instance : Consumes propertyName where
  lt_of_ok {c c'} _ hc h := by
    rw [propertyName, current_bind, ite_run] at h
    split at h
    · exact Consumes.lt_of_ok (p := do return some (← identifier)) hc h
    rw [ite_run] at h
    split at h
    · rename_i hk
      -- A string or a number is a token, and not the end.
      have hr : c.rest ≠ [] := hc.rest_ne_nil <| by
        simp only [Bool.or_eq_true, beq_iff_eq] at hk
        rcases hk with hk | hk <;> simp [Token.isEof, hk]
      exact ConsumesAhead.lt_of_ok (p := do let _ ← advance; return none) hc hr h
    rw [ite_run] at h
    split at h
    · exact Consumes.lt_of_ok (p := do skipGroup; return none) hc h
    · cases h

section Nested

variable (type : Parser TypeExpr) [Moves type] (start : Position)

/-! With types in them, the rules need no more than that nested types do not go back: it is their
own brackets and words that are consumed. -/

instance : Consumes (parameters type) := by unfold parameters; infer_instance

instance (construct : Bool) : Consumes (callSignature type start construct) := by
  unfold callSignature; infer_instance

instance : Consumes (indexSignature type start) := by unfold indexSignature; infer_instance

instance : Consumes (accessorSignature type start) := by unfold accessorSignature; infer_instance

instance (modifiers : Modifiers) : Consumes (namedMember type start modifiers) := by
  unfold namedMember; infer_instance

instance : Consumes (member type) := by unfold member; infer_instance

end Nested

variable (start : Position) (modifiers : Modifiers)

instance : Consumes (constructorMember start modifiers) := by
  unfold constructorMember; infer_instance

instance : Consumes (staticBlock start) := by unfold staticBlock; infer_instance

instance : Consumes (indexMember start) := by unfold indexMember; infer_instance

instance : Consumes (namedClassMember start modifiers) := by
  unfold namedClassMember; infer_instance

instance : Consumes classMember := by unfold classMember; infer_instance

instance : Consumes (interfaceDecl start modifiers) := by unfold interfaceDecl; infer_instance

instance : Consumes (classDecl start modifiers) := by unfold classDecl; infer_instance

instance : Consumes (enumDecl start modifiers) := by unfold enumDecl; infer_instance

instance : Consumes (functionDecl start modifiers) := by unfold functionDecl; infer_instance

instance : Consumes (typeAlias start modifiers) := by unfold typeAlias; infer_instance

end Consumes

/-! ## Rounds that look at the current token

Such a round does not go on at the end of the source, and any other token it consumes, alone or
with the group it opens. The second half is a matter of form again. -/

/-- A round that goes on where a token is left has consumed one. -/
class ProgressAhead (next : Parser (Option α)) : Prop where
  lt_of_some : ∀ {c c' : Cursor} {a : α}, c.Visited → c.rest ≠ [] → next c = .ok (some a, c') →
    c'.rest.length < c.rest.length

namespace ProgressAhead

instance : ProgressAhead (pure none : Parser (Option α)) where
  lt_of_some _ _ h := by cases h

instance (priority := low) of_consumesAhead (p : Parser (Option α)) [ConsumesAhead p] :
    ProgressAhead p where
  lt_of_some hc hr h := ConsumesAhead.lt_of_ok hc hr h

instance (priority := low) bind_right (p : Parser α) (f : α → Parser (Option β)) [Moves p]
    [∀ a, Moves (f a)] [∀ a, ProgressAhead (f a)] : ProgressAhead (p >>= f) where
  lt_of_some {c c'} _ hc hr h := by
    obtain ⟨a, c₁, h₁, h₂⟩ := bind_eq_ok.1 h
    by_cases hlt : c₁.rest.length < c.rest.length
    · exact Nat.lt_of_le_of_lt (Moves.length_le h₂) hlt
    · obtain rfl := (Moves.reaches_of_ok h₁).eq_of_length_le (Nat.le_of_not_lt hlt)
      exact lt_of_some hc hr h₂

instance ite (P : Prop) [Decidable P] (p q : Parser (Option α)) [ProgressAhead p]
    [ProgressAhead q] : ProgressAhead (if P then p else q) := by
  split <;> assumption

end ProgressAhead

namespace Progress

/-- A round that goes on only where a token is left, and consumes one then, makes progress. It
remains to be shown for each of them that the end of the source ends it. -/
theorem of_ahead (next : Parser (Option α)) [ProgressAhead next]
    (h : ∀ {c c' : Cursor} {a : α}, next c = .ok (some a, c') → c.current.isEof = false) :
    Progress next where
  lt_of_some hc hn := ProgressAhead.lt_of_some hc (hc.rest_ne_nil (h hn)) hn

instance (type : Parser TypeExpr) [Moves type] : Progress (nextMember type) := by
  unfold nextMember; infer_instance

instance : Progress nextClassMember := by unfold nextClassMember; infer_instance

instance bracketed? (type : Parser TypeExpr) [Moves type] (t : TypeExpr) :
    Progress (bracketed? type t) :=
  have : ProgressAhead (Parser.bracketed? type t) := by unfold Parser.bracketed?; infer_instance
  of_ahead _ fun {c c' a} h => by
    rw [Parser.bracketed?, current_bind, ite_run] at h
    split at h
    · exact Token.isEof_of_is (Bool.and_eq_true_iff.1 (by assumption)).1
    · cases h

/-- A modifier is a word. Each of the alternatives asks for a word first. -/
theorem isEof_of_isStatementModifier {before : Modifiers} {t next : Token}
    (h : isStatementModifier before t next = true) : t.isEof = false := by
  simp only [isStatementModifier, Bool.or_eq_true, Bool.and_eq_true] at h
  rcases h with ((((h | h) | h) | h) | h) | h
  · exact Token.isEof_of_is h.1.1
  · exact Token.isEof_of_is h.1
  · exact Token.isEof_of_is h.1.1
  · exact Token.isEof_of_is h.1.1
  · exact Token.isEof_of_is h.1
  · exact Token.isEof_of_is h.1.1

instance modifierRound (before : Modifiers) : Progress (modifierRound before) :=
  have : ProgressAhead (Parser.modifierRound before) := by
    unfold Parser.modifierRound; infer_instance
  of_ahead _ fun {c c' a} h => by
    obtain ⟨next, c₁, h₁, h⟩ := bind_eq_ok.1 h
    rw [← (peek_eq_ok.1 h₁).1, current_bind, ite_run] at h
    split at h
    · exact isEof_of_isStatementModifier (by assumption)
    · cases h

/-- A round that asks first whether the source ends. This is the form in which statements and
expressions are skipped. -/
theorem of_isEof {f : Token → Parser (Option α)} {c c' : Cursor} {a : α}
    (h : (do let t ← current; if t.isEof then return none else f t) c = .ok (some a, c')) :
    c.current.isEof = false := by
  rw [current_bind, ite_run] at h
  split at h
  · cases h
  · exact Bool.not_eq_true _ ▸ ‹_›

instance statementRound (first : Bool) : Progress (statementRound first) :=
  have : ProgressAhead (Parser.statementRound first) := by
    unfold Parser.statementRound; infer_instance
  of_ahead _ of_isEof

instance expressionRound (first : Bool) : Progress (expressionRound first) :=
  have : ProgressAhead (Parser.expressionRound first) := by
    unfold Parser.expressionRound; infer_instance
  of_ahead _ of_isEof

end Progress

/-! ## Statements

Skipping a statement consumes its first token in any case, and then goes on as long as the
statement does. The same holds of the rules that are chosen by a word. -/

namespace ConsumesAhead

/-- The first token of a statement is consumed whatever it is. -/
instance statementRound : ConsumesAhead (statementRound true) where
  lt_of_ok {c c'} _ hc hr h := by
    have he : c.current.isEof = false := by
      rw [hc.current_isEof]
      exact List.isEmpty_eq_false_iff.2 hr
    rw [Parser.statementRound, current_bind, he] at h
    obtain ⟨b, c₁, h₁, h₂⟩ := bind_eq_ok.1 h
    cases h₁
    simp only [Bool.not_true, Bool.false_and, Bool.and_false, Bool.false_eq_true, if_false] at h₂
    exact ConsumesAhead.lt_of_ok (p := if c.current.is ";" = true then do
        let _ ← advance
        return none
      else if c.current.isOpener = true then do
        skipGroup
        return some false
      else do
        let _ ← advance
        return some false) hc hr h₂

/-- The first round consumes a token, and those behind it move on. -/
instance skipStatement : ConsumesAhead skipStatement where
  lt_of_ok {c c'} _ hc hr h := by
    rw [Parser.skipStatement] at h
    obtain ⟨b, c₁, hloop, hlast⟩ := bind_eq_ok.1 h
    obtain ⟨-, rfl⟩ := pure_eq_ok.1 hlast
    rw [iterate_run] at hloop
    obtain ⟨m, -, ⟨-, hround⟩ | ⟨b', c₂, hround, hmore⟩⟩ := iterateUpTo_eq_ok hloop
    · exact lt_of_ok hc hr hround
    · exact Nat.lt_of_le_of_lt (Moves.length_le hmore) (lt_of_ok hc hr hround)

instance (start : Position) (modifiers : Modifiers) :
    ConsumesAhead (variableDecl start modifiers) := by
  unfold variableDecl; infer_instance

instance (start : Position) (first : Text) : ConsumesAhead (otherStatement start first) := by
  unfold otherStatement; infer_instance

instance (start : Position) (first : Text) : ConsumesAhead (statementFrom start first) := by
  unfold statementFrom; infer_instance

instance : ConsumesAhead statement? := by unfold statement?; infer_instance

end ConsumesAhead

namespace Consumes

/-- The key of a member of an enumeration is a token, or a group in brackets. -/
instance : Consumes enumMemberName where
  lt_of_ok {c _ _} hc h := by
    rw [enumMemberName, here_bind, current_bind, ite_run] at h
    split at h
    · rename_i hk
      have hr : c.rest ≠ [] := hc.rest_ne_nil <| by
        simp only [Bool.or_eq_true, beq_iff_eq] at hk
        rcases hk with (hk | hk) | hk
        · exact Token.isEof_of_isIdent hk
        all_goals simp [Token.isEof, hk]
      exact ConsumesAhead.lt_of_ok (p := do return (← advance).text) hc hr h
    rw [ite_run] at h
    split at h
    · exact Consumes.lt_of_ok (p := do skipGroup; sourceFrom c.current.start) hc h
    · cases h

end Consumes

instance Progress.nextStatement : Progress nextStatement :=
  have : ProgressAhead Parser.nextStatement := by unfold Parser.nextStatement; infer_instance
  .of_ahead _ fun {c c' a} h => Progress.of_isEof (f := fun _ => do return some (← statement?)) h

end Exemplar.Parser
