import Exemplar.Proofs.Grammar.PartStatements

/-!
# Statements that end with their part

The rules for statements can come to the end of a part and succeed there, for where a source
ends a statement may end. Before a semicolon they may then consume it, which is no difference
that matters: the part has been read, and the whole goes on behind the semicolon. So a statement
is simulated in a looser sense (`Ends`): the run on the whole stops at the same place, or behind
the semicolon after the part (`Cursor.Left`). The rules it is said of are those that come last
in a statement, and a rule behind them may not look at the place any more (`Settled`).

One statement can be followed only up to the end of the part: decorators with nothing behind
them. They make a statement of their own in the part, of which nothing is kept, and before
`export` they belong to the statement that starts there.

A statement starts with its modifiers, and these are the same on both sides: whether a word is a
modifier is asked of the word and of the token behind it, by pairs of tests that may look beyond
the part. So each statement is followed behind its modifiers, by the rule for its first word.
-/

namespace Exemplar

open Exemplar.Tree Exemplar.Brackets

namespace Cursor

/-- The part has been read, and `d'` stands behind the semicolon that comes after it. -/
structure Passed (e : Placement) (d d' : Cursor) : Prop where
  rest : d.rest = []
  tail : ∃ s : Token, s.IsSemicolon ∧ e.tail = s :: d'.rest

/-- Where a statement stops: at the same place, or behind the semicolon after the part. -/
def Left (e : Placement) (d d' : Cursor) : Prop := Placed e d d' ∨ Passed e d d'

end Cursor

namespace Parser

open Cursor (Placed Passed Left Alongside)

variable {α β : Type} [HasPlaces α] [HasPlaces β] {e : Placement} {k : Scope} {c c' d : Cursor}

-- The search for an instance is as deep as the rule is long.
set_option synthInstance.maxSize 100000

/-- **A run of a statement on a part is followed by one on the whole**, which may also consume
the semicolon behind the part. -/
abbrev Ends (e : Placement) (k : Scope) (p p' : Parser α) : Prop :=
  Simulates (Placed e) (Left e) k p p'

/-- Parsers that answer alike, wherever they are. -/
class Settled (p p' : Parser α) : Prop where
  settled : ∀ c c' : Cursor, ∃ a a', p c = .ok (a, c) ∧ p' c' = .ok (a', c') ∧ SameBare a a'

namespace Settled

instance (a a' : α) [h : SameBare a a'] : Settled (pure a) (pure a') :=
  ⟨fun _ _ => ⟨a, a', rfl, rfl, h⟩⟩

instance (s s' : Position) : Settled (spanFrom s) (spanFrom s') :=
  ⟨fun c c' => ⟨⟨s, c.lastStop⟩, ⟨s', c'.lastStop⟩, rfl, rfl, inferInstance⟩⟩

instance {p p' : Parser α} {f f' : α → Parser β} [hp : Settled p p']
    [hf : ∀ r : BarePair α, Settled (f r.left) (f' r.right)] :
    Settled (p >>= f) (p' >>= f') where
  settled c c' := by
    obtain ⟨a, a', h, h', ha⟩ := hp.settled c c'
    obtain ⟨b, b', h₁, h₁', hb⟩ := (hf ⟨a, a', ha⟩).settled c c'
    exact ⟨b, b', by rw [bind_of_ok h]; exact h₁, by rw [bind_of_ok h']; exact h₁', hb⟩

end Settled

namespace Ends

open Follows

/-- A run that stops at the same place has stopped where a statement may stop. -/
instance (priority := low) of_follows (p p' : Parser α) [hp : Follows e k p p'] :
    Ends e k p p' where
  endsLike hc h hd := by
    obtain ⟨a', d', h', ha, hd'⟩ := hp.endsLike hc h hd
    exact ⟨a', d', h', ha, .inl hd'⟩

/-- What is answered at the end does not depend on the place. -/
instance (priority := low) bind_settled [k.Starts] {p p' : Parser α} {f f' : α → Parser β}
    [hp : Ends e k p p'] [hf : ∀ r : BarePair α, Settled (f r.left) (f' r.right)] :
    Ends e k (p >>= f) (p' >>= f') where
  endsLike hc h hd := by
    obtain ⟨a, c₁, h₁, h₂⟩ := bind_eq_ok.1 h
    obtain ⟨a', c₁', h₁', ha, hc₁⟩ := hp.endsLike hc h₁ (Scope.Starts.admits hd)
    obtain ⟨b, b', hb, hb', hbb'⟩ := (hf ⟨a, a', ha⟩).settled c₁ c₁'
    rw [hb] at h₂
    cases h₂
    exact ⟨b', c₁', by rw [bind_of_ok h₁']; exact hb', hbb', hc₁⟩

/-! ## Where a semicolon may be left out

A statement ends with a semicolon, or where none is needed. In the part the end of the source is
such a place. In the whole, what comes behind the part was chosen so that it is one too: nothing
at all, a semicolon, or `export` at the beginning of a line. -/

/-- A semicolon behind a part is consumed at its end. -/
theorem passed_past {t : Token} {more : List Token} (hc : Placed e c c') (hr : c.rest = [])
    (htail : e.tail = t :: more) (ht : t.IsSemicolon) :
    advance c' = .ok (t, c'.past t more) ∧ Passed e c (c'.past t more) := by
  have hr' := hc.rest_of_nil hr
  rw [htail] at hr'
  exact ⟨advance_run_cons hr' hc.clean'.fault, hr, t, ht, htail⟩

/-- At the end of a part a semicolon is consumed, if one comes behind. -/
theorem got_semicolon_of_nil (hc : Placed e c c') (hr : c.rest = []) :
    (got ";" c' = .ok (false, c') ∧ (c'.current.isEof = true ∨ c'.current.newlineBefore = true))
    ∨ ∃ d', got ";" c' = .ok (true, d') ∧ Passed e c d' := by
  have hnot : c'.current.is ";" = false → got ";" c' = .ok (false, c') := by
    intro h
    rw [got_run, h]
    rfl
  -- What comes behind the part decides.
  cases hc.current_of_nil hr with
  | nothing _ hk _ =>
    exact .inl ⟨hnot (by rw [Token.is, hk]; rfl), .inl (by rw [Token.isEof, hk]; rfl)⟩
  | exported _ h => exact .inl ⟨hnot (by rw [Token.is_eq h.word_eq]; rfl), .inr h.newline⟩
  | semicolon htail h =>
    obtain ⟨hadvance, hpassed⟩ := passed_past hc hr htail h
    refine .inr ⟨_, ?_, hpassed⟩
    have his : c'.current.is ";" = true := by rw [Token.is_eq h.word_eq]; rfl
    rw [got_run, if_pos his, bind_of_ok hadvance]
    rfl

/-- At the end of a part a statement may end. -/
theorem statementMayEnd_of_nil (h : c'.current.isEof = true ∨ c'.current.newlineBefore = true) :
    statementMayEnd c' = .ok (true, c') := by
  show Except.ok (c'.current.is ";" || c'.current.is "\x7d" || c'.current.isEof
    || c'.current.newlineBefore, c') = _
  rcases h with h | h <;> rw [h] <;> simp

/-- The end of a statement: a semicolon, nothing where it may be left out, or something else. -/
def endOr (q : Parser Unit) : Parser Unit := do
  if ← got ";" then return ()
  else if ← statementMayEnd then return ()
  else q

instance still_statementMayEnd : Still statementMayEnd := by
  unfold statementMayEnd; infer_instance

instance : Follows e .token statementMayEnd statementMayEnd := by
  unfold statementMayEnd; infer_instance

/-- **The end of a statement is followed**, and where the part ends the statement ends on both
sides: with the semicolon behind the part, or without one before the end and before `export`. -/
instance {q : Parser Unit} [Ends e .token q q] : Ends e .anywhere (endOr q) (endOr q) where
  endsLike {c c' d a} hc h _ := by
    unfold endOr at h ⊢
    -- At the end of the part it is known what both do. Before it they see the same token.
    by_cases hr : c.rest = []
    · have heof : c.current.isEof = true := by rw [hc.visited.current_isEof, hr]; rfl
      have hnot : got ";" c = .ok (false, c) := by
        rw [got_run, Cursor.current_of_nil hr, hc.clean.is_eq_false]
        rfl
      rw [bind_of_ok hnot, if_neg Bool.false_ne_true,
        bind_of_ok (statementMayEnd_of_nil (.inl heof)), if_pos rfl] at h
      obtain ⟨rfl, rfl⟩ := pure_eq_ok.1 h
      rcases got_semicolon_of_nil hc hr with ⟨hgot, hend⟩ | ⟨d', hgot, hpassed⟩
      · refine ⟨(), c', ?_, inferInstance, .inl hc⟩
        rw [bind_of_ok hgot, if_neg Bool.false_ne_true, bind_of_ok (statementMayEnd_of_nil hend)]
        rfl
      · exact ⟨(), d', by rw [bind_of_ok hgot]; rfl, inferInstance, .inr hpassed⟩
    · refine EndsLike.bind (R := Placed e) h (fun h₁ _ => Simulates.again .token hc h₁ hr) ?_
      rintro b b' c₁ c₁' ⟨hb⟩ hc₁ h₁ h₂
      obtain rfl : b = b' := hb
      rcases got_inv hc.clean h₁ with ⟨rfl, rfl, -⟩ | ⟨rfl, t, more, -, -, rfl⟩
      · rw [if_neg Bool.false_ne_true] at h₂
        rw [EndsLike, if_neg Bool.false_ne_true]
        exact Simulates.endsLike (k := .token) hc₁ h₂ hr
      · obtain ⟨rfl, rfl⟩ := pure_eq_ok.1 h₂
        exact ⟨(), c₁', rfl, inferInstance, .inl hc₁⟩

instance : Ends e .anywhere semicolon semicolon :=
  inferInstanceAs
    (Ends e .anywhere (endOr (fail (.expected ";"))) (endOr (fail (.expected ";"))))

instance : Ends e .anywhere functionBody functionBody := by
  unfold functionBody; infer_instance

/-! ## Skipped statements

A statement that is no declaration is skipped token by token, up to the end of a line where the
last token and the next one allow it. Each round is followed before a token, and at the end of
the part the skipping is over on both sides. The only exception is a round that has not consumed
anything yet: before `export` it would go on in the whole and consume the word. -/

instance statementRound_token (first : Bool) :
    Follows e .token (statementRound first) (statementRound first) := by
  unfold statementRound; infer_instance

instance (first : Bool) : Later (statementRound first) := by
  unfold statementRound; infer_instance

/-- At the end of a part a statement is over, with the semicolon behind it or without. A round
first asks about the end of the source, then about a line break, then about a semicolon. So the
three ways in which a part can end are three ways for the round to stop. -/
theorem statementRound_of_nil {first : Bool} (hc : Placed e c c') (hr : c.rest = [])
    (hx : first = true → ¬e.Exports) :
    ∃ d', statementRound first c' = .ok (none, d') ∧ Left e c d' := by
  unfold statementRound
  rw [current_bind]
  cases hc.current_of_nil hr with
  | nothing _ hk _ =>
    have heof : c'.current.isEof = true := by rw [Token.isEof, hk]; rfl
    exact ⟨c', by rw [if_pos heof]; rfl, .inl hc⟩
  | semicolon htail hs =>
    have heof : ¬c'.current.isEof = true := by rw [Token.isEof, hs.kind]; decide
    have his : c'.current.is ";" = true := by rw [Token.is_eq hs.word_eq]; rfl
    obtain ⟨hadvance, hpassed⟩ := passed_past hc hr htail hs
    obtain ⟨b, hb⟩ : ∃ b, atBreak c' = .ok (b, c') := ⟨_, rfl⟩
    rw [if_neg heof, bind_of_ok hb, if_pos his]
    cases !first && b with
    | true => exact ⟨c', rfl, .inl hc⟩
    | false =>
      refine ⟨_, ?_, .inr hpassed⟩
      rw [if_neg Bool.false_ne_true, bind_of_ok hadvance]
      rfl
  | exported htail hs =>
    have hexports : e.Exports := ⟨_, _, htail, hs⟩
    have heof : ¬c'.current.isEof = true := by rw [Token.isEof, hs.kind]; decide
    have hfirst : first = false := Bool.eq_false_iff.2 fun h => hx h hexports
    refine ⟨c', ?_, .inl hc⟩
    rw [if_neg heof, bind_of_ok (atBreak_of_exports hc hr hexports), hfirst]
    rfl

/-- A round of a skipped statement goes on at the same place, and the last one stops where a
statement may stop. -/
theorem statementRound_placed {first : Bool} {o : Option Bool} (hc : Placed e c c')
    (hx : first = true → e.Exports → c.rest ≠ []) (h : statementRound first c = .ok (o, d)) :
    ∃ o' d', statementRound first c' = .ok (o', d') ∧ SameBare o o' ∧ (o = none → Left e d d') ∧
      ∀ b, o = some b → Placed e d d' := by
  by_cases hr : c.rest = []
  · have heof : c.current.isEof = true := by rw [hc.visited.current_isEof, hr]; rfl
    unfold statementRound at h
    rw [current_bind, if_pos heof] at h
    obtain ⟨rfl, rfl⟩ := pure_eq_ok.1 h
    obtain ⟨d', h', hd⟩ := statementRound_of_nil hc hr fun hf he => hx hf he hr
    exact ⟨none, d', h', inferInstance, fun _ => hd, nofun⟩
  · obtain ⟨o', d', h', ho, hd⟩ := Simulates.again (R := Placed e) (S := Placed e) .token hc h hr
    exact ⟨o', d', h', ho, fun _ => .inl hd, fun _ _ => hd⟩

/-- The rounds of a skipped statement are followed one by one. The whole may take more rounds
than the part has tokens; it does not need them. -/
theorem statementRounds_placed {first b : Bool} {n m : Nat} (hnm : n ≤ m) (hc : Placed e c c')
    (hx : first = true → e.Exports → c.rest ≠ [])
    (h : iterateUpTo statementRound n first c = .ok (b, d)) :
    EndsLike (Left e) (iterateUpTo statementRound m first c') b d := by
  refine Simulates.iterateUpTo_of (fun first c => first = true → e.Exports → c.rest ≠ []) ?_ hnm
    (SameBare.refl first) hc hx h
  rintro s s' o c c' c₁ ⟨hs⟩ hc hx h -
  obtain rfl : s = s' := hs
  obtain ⟨o', d', h', ho, hlast, hgo⟩ := statementRound_placed hc hx h
  refine ⟨o', d', h', ho, hlast, fun b hb => ⟨hgo b hb, fun htrue => ?_⟩⟩
  -- a round that goes on leaves a piece behind it that is not the first
  subst hb
  rw [Later.eq_false h] at htrue
  cases htrue

instance : Ends e (.free e) skipStatement skipStatement where
  endsLike {c c' d a} hc h hx := by
    unfold skipStatement at h ⊢
    obtain ⟨b, c₁, hloop, hlast⟩ := bind_eq_ok.1 h
    obtain ⟨-, rfl⟩ := pure_eq_ok.1 hlast
    obtain ⟨b', d', hloop', -, hd⟩ :=
      statementRounds_placed (Nat.succ_le_succ (Alongside.length_le hc)) hc (fun _ => hx) hloop
    exact ⟨(), d', by rw [bind_of_ok (iterate_run _ _ c' ▸ hloop')]; rfl, inferInstance, hd⟩

instance : Ends e .anywhere variablesEnd variablesEnd :=
  inferInstanceAs (Ends e .anywhere (endOr skipStatement) (endOr skipStatement))

instance (start start' : Position) {x y : Text} [SameBare x y] :
    Ends e (.free e) (otherStatement start x) (otherStatement start' y) := by
  unfold otherStatement; infer_instance

/-! ## Statements -/

section Declarations

variable (start start' : Position) {ms ms' : Modifiers} [SameBare ms ms']

instance : Ends e .anywhere (functionDecl start ms) (functionDecl start' ms') := by
  unfold functionDecl; infer_instance

instance : Ends e .anywhere (typeAlias start ms) (typeAlias start' ms') := by
  unfold typeAlias; infer_instance

end Declarations

/-! ### Modifiers

Which words are modifiers is asked with the token behind them, and in the part this one may be
the end. The tests are chosen such that none is passed by what can come behind a part, so a word
that is no modifier in the part is none in the whole. -/

instance : LooksAhead (·.is "export") (fun t => t.isIdent && t.text != Text.ofString "as") := {}

instance (b : Bool) : LooksAhead (·.is "default") (fun _ => b) where
  second := ⟨fun _ => rfl, fun _ _ _ _ => rfl⟩

instance : LooksAhead (·.is "declare") (fun t => t.isIdent && !t.newlineBefore) := {}

instance : LooksAhead (·.is "abstract") (fun t => t.is "class" && !t.newlineBefore) := {}

instance : LooksAhead (·.is "const") (·.is "enum") := {}

instance : LooksAhead (·.is "async") (fun t => t.is "function" && !t.newlineBefore) := {}

/-- A modifier is known by tests on the word and on what comes behind it. -/
theorem isStatementModifier_congr {t t' next next' : Token} (before : Modifiers)
    (h : ∀ (w : String) (g : Token → Bool) [LooksAhead (·.is w) g],
      (t.is w && g next) = (t'.is w && g next')) :
    isStatementModifier before t next = isStatementModifier before t' next' := by
  have h₁ := h "export" (fun t => t.isIdent && t.text != Text.ofString "as")
  have h₂ := h "default" (fun _ => Modifiers.has before .exported)
  have h₃ := h "declare" (fun t => t.isIdent && !t.newlineBefore)
  have h₄ := h "abstract" (fun t => t.is "class" && !t.newlineBefore)
  have h₅ := h "const" (·.is "enum")
  have h₆ := h "async" (fun t => t.is "function" && !t.newlineBefore)
  simp only [isStatementModifier, Bool.and_assoc]
  rw [h₁, h₂, h₃, h₄, h₅, h₆]

/-- So the same words are modifiers on both sides. -/
theorem isStatementModifier_eq (hc : Placed e c c') (hfree : e.Exports → c.rest ≠ [])
    (before : Modifiers) : isStatementModifier before c.current c.second
      = isStatementModifier before c'.current c'.second :=
  isStatementModifier_congr before fun w g _ => ahead_eq hc hfree (·.is w) g

/-- A round consumes a modifier, if there is one. -/
theorem modifierRound_run (hf : c.ending.fault = none) (before : Modifiers) :
    modifierRound before c =
      (if isStatementModifier before c.current c.second then do
        let _ ← advance
        return some (before ++ (Modifier.ofWord? c.current.text).toList)
      else return none : Parser (Option Modifiers)) c := by
  unfold modifierRound
  rw [bind_of_ok (peek_run hf 0), current_bind]
  rfl

/-- A modifier ends no expression. Each is known by its word, and each word has been seen to be
unfinished. -/
theorem not_isFinal_of_isStatementModifier {before : Modifiers} {t next : Token}
    (h : isStatementModifier before t next = true) : ¬t.IsFinal := by
  intro hfinal
  have hfalse : ∀ (f g : Token → Bool) [LooksAhead f g], f t = false := fun f g _ =>
    LooksAhead.of_isFinal g hfinal
  have h₁ := hfalse (·.is "export") (fun t => t.isIdent && t.text != Text.ofString "as")
  have h₂ := hfalse (·.is "default") (fun _ => true)
  have h₃ := hfalse (·.is "declare") (fun t => t.isIdent && !t.newlineBefore)
  have h₄ := hfalse (·.is "abstract") (fun t => t.is "class" && !t.newlineBefore)
  have h₅ := hfalse (·.is "const") (·.is "enum")
  have h₆ := hfalse (·.is "async") (fun t => t.is "function" && !t.newlineBefore)
  simp only [isStatementModifier, h₁, h₂, h₃, h₄, h₅, h₆, Bool.false_and, Bool.or_self] at h
  cases h

/-- A round of the modifiers is followed, and stops before a token if `export` comes behind. -/
theorem modifierRound_placed {before : Modifiers} {o : Option Modifiers} (hc : Placed e c c')
    (hfree : e.Exports → c.rest ≠ []) (h : modifierRound before c = .ok (o, d)) :
    ∃ d', modifierRound before c' = .ok (o, d') ∧ Placed e d d' ∧ (e.Exports → d.rest ≠ []) := by
  rw [modifierRound_run hc.clean.fault, ite_run] at h
  rw [modifierRound_run hc.clean'.fault, ← isStatementModifier_eq hc hfree, ite_run]
  split at h
  · rename_i hmod
    rw [if_pos hmod]
    obtain ⟨t, c₁, h₁, h₂⟩ := bind_eq_ok.1 h
    obtain ⟨rfl, rfl⟩ := pure_eq_ok.1 h₂
    have hr : c.rest ≠ [] :=
      hc.visited.rest_ne_nil (Progress.isEof_of_isStatementModifier hmod)
    obtain ⟨more, hcons, rfl⟩ := advance_inv hr h₁
    obtain ⟨t', more', hcons', ht, hpast⟩ := hc.past hcons
    obtain ⟨s, hs⟩ := (Alongside.current hc hr).exists_span
    have hnot := not_isFinal_of_isStatementModifier hmod
    rw [Cursor.current_of_cons hcons] at hnot
    refine ⟨_, ?_, hpast, rest_ne_nil_of_past hc hcons hnot⟩
    rw [bind_of_ok (advance_run_cons hcons' hc.clean'.fault), hs]
    rfl
  · rename_i hmod
    rw [if_neg hmod]
    obtain ⟨rfl, rfl⟩ := pure_eq_ok.1 h
    exact ⟨c', rfl, hc, hfree⟩

/-- **The modifiers of a statement are the same on both sides**, and a token is left behind them
if `export` comes behind the part. -/
theorem modifiers_placed {before ms : Modifiers} {n m : Nat} (hnm : n ≤ m) (hc : Placed e c c')
    (hfree : e.Exports → c.rest ≠ []) (h : iterateUpTo modifierRound n before c = .ok (ms, d)) :
    ∃ d', iterateUpTo modifierRound m before c' = .ok (ms, d') ∧ Placed e d d' ∧
      (e.Exports → d.rest ≠ []) := by
  have hends : EndsLike (fun d d' => Placed e d d' ∧ (e.Exports → d.rest ≠ []))
      (iterateUpTo modifierRound m before c') ms d := by
    refine Simulates.iterateUpTo_of (fun _ c => e.Exports → c.rest ≠ []) ?_ hnm
      (SameBare.refl before) hc hfree h
    intro before before' o c c' d hs hc hfree h _
    obtain rfl : before = before' := hs.eq
    obtain ⟨d', h', hd, hfree'⟩ := modifierRound_placed hc hfree h
    exact ⟨o, d', h', inferInstance, fun _ => ⟨hd, hfree'⟩, fun _ _ => ⟨hd, hfree'⟩⟩
  obtain ⟨ms', d', h', ⟨hms⟩, hd⟩ := hends
  obtain rfl : ms = ms' := hms
  exact ⟨d', h', hd⟩

/-! ### Statements by their first word

Declarations with a body end with it, and what else there is ends with a semicolon or without.
The words that introduce variables need a closer look: they consume the word without asking what
comes behind, and behind the word there is still a token in the part, because a statement does
not end with it. -/

instance : Unfinished "const" := {}

instance : Unfinished "var" := {}

instance : Unfinished "let" := {}

instance : Inert Placement.words (·.is "class") := {}

instance : Inert Placement.words (·.is "const") := {}

instance : Inert Placement.words (·.is "var") := {}

instance : LooksAhead (·.is "interface") (·.isIdent) := {}

instance : LooksAhead (·.is "enum") (·.isIdent) := {}

instance : LooksAhead (·.is "let") startsBinding := {}

instance : LooksAhead (·.is "type") (fun next => next.isIdent && !next.newlineBefore) := {}

/-- A statement behind its modifiers. -/
def statementBody (start : Position) (first : Text) (modifiers : Modifiers) : Parser Statement :=
  do
  if ← ahead (·.is "interface") (·.isIdent) then interfaceDecl start modifiers
  else if ← is "class" then classDecl start modifiers
  else if ← ahead (·.is "enum") (·.isIdent) then enumDecl start modifiers
  else if (← is "const") || (← is "var") then variableDecl start modifiers
  else if ← ahead (·.is "let") startsBinding then variableDecl start modifiers
  else if ← is "function" then functionDecl start modifiers
  else if ← ahead (·.is "type") (fun next => next.isIdent && !next.newlineBefore) then
    typeAlias start modifiers
  else otherStatement start first

/-- A statement is its modifiers and what is behind them. -/
theorem statementFrom_eq (start : Position) (first : Text) :
    statementFrom start first = statementModifiers >>= statementBody start first := rfl

section Variables

variable {start start' : Position} {ms ms' : Modifiers} [SameBare ms ms']

/-- A variable statement is followed behind its first word. -/
instance {kw kw' : Text} [SameBare kw kw'] : Ends e (.free e)
    (do
      let found ← declarators
      variablesEnd
      return Statement.variables ⟨← spanFrom start, ms, kw, found⟩)
    (do
      let found ← declarators
      variablesEnd
      return Statement.variables ⟨← spanFrom start', ms', kw', found⟩) := inferInstance

/-- The word that a variable statement starts with ends no expression. -/
theorem variableDecl_ends {s : Statement} {w : String} [Unfinished w] (hc : Placed e c c')
    (hword : c.current.is w = true) (h : variableDecl start ms c = .ok (s, d)) :
    EndsLike (Left e) (variableDecl start' ms' c') s d := by
  have hr := hc.visited.rest_ne_nil (Token.isEof_of_is hword)
  unfold variableDecl at h ⊢
  refine EndsLike.bind (R := Placed e) h (fun h₁ _ => Simulates.again .token hc h₁ hr) ?_
  intro t t' c₁ c₁' ht hc₁ h₁ h₂
  obtain ⟨more, hcons, rfl⟩ := advance_inv hr h₁
  rw [Cursor.current_of_cons hcons] at hword
  have hfree := rest_ne_nil_of_past hc hcons (Unfinished.not_isFinal hword)
  exact Simulates.endsLike (k := .free e) hc₁ h₂ hfree

/-- A variable statement with one of two words. -/
instance const_ends {q q' : Parser Statement} [Ends e (.free e) q q'] :
    Ends e (.free e)
      (is "const" >>= fun x => is "var" >>= fun y =>
        if (x || y) = true then variableDecl start ms else q)
      (is "const" >>= fun x => is "var" >>= fun y =>
        if (x || y) = true then variableDecl start' ms' else q') where
  endsLike {c c' d s} hc h hfree := by
    have hwords : ∀ w, [Inert Placement.words (·.is w)] → c.current.is w = c'.current.is w := by
      intro w _
      have hlook := Alongside.look_eq hc (·.is w) (Nat.zero_le _)
      rwa [Cursor.look_zero, Cursor.look_zero] at hlook
    rw [is_bind, is_bind] at h
    rw [EndsLike, is_bind, is_bind, ← hwords "const", ← hwords "var"]
    refine EndsLike.ite h (fun hword h => ?_) fun _ h => Simulates.endsLike hc h hfree
    rcases Bool.or_eq_true_iff.1 hword with hconst | hvar
    · exact variableDecl_ends hc hconst h
    · exact variableDecl_ends hc hvar h

/-- The word `let` introduces variables if a binding follows, which is asked in advance. -/
instance let_ends {q q' : Parser Statement} [hq : Ends e (.free e) q q'] :
    Ends e (.free e)
      (ahead (·.is "let") startsBinding >>= fun b =>
        if b = true then variableDecl start ms else q)
      (ahead (·.is "let") startsBinding >>= fun b =>
        if b = true then variableDecl start' ms' else q') where
  endsLike {c c' d s} hc h hfree := by
    refine EndsLike.bind (R := Placed e) h
      (fun h₁ _ => Simulates.again (.free e) hc h₁ hfree) ?_
    rintro b b' c₁ c₁' ⟨hb⟩ hc₁ h₁ h₂
    obtain rfl : b = b' := hb
    obtain rfl := Still.eq_of_ok h₁
    cases b with
    | false => exact hq.endsLike hc₁ h₂ hfree
    | true => exact variableDecl_ends hc₁ (ahead_eq_true h₁).1 h₂

end Variables

section Statements

variable (start start' : Position) {x y : Text} [SameBare x y]

instance (ms : Modifiers) :
    Ends e (.free e) (statementBody start x ms) (statementBody start' y ms) := by
  unfold statementBody
  infer_instance

/-- **A statement can be followed from where a token is left**, and at the end of the part unless
`export` comes behind. -/
instance : Ends e (.free e) (statementFrom start x) (statementFrom start' y) where
  endsLike {c c' d s} hc h hfree := by
    rw [statementFrom_eq] at h
    rw [EndsLike, statementFrom_eq]
    obtain ⟨ms, c₁, h₁, h₂⟩ := bind_eq_ok.1 h
    obtain ⟨c₁', h₁', hc₁, hfree₁⟩ :=
      modifiers_placed (Nat.succ_le_succ (Alongside.length_le hc)) hc hfree h₁
    have hbody : Ends e (.free e) (statementBody start x ms) (statementBody start' y ms) :=
      inferInstance
    obtain ⟨s', d', h₂', hs, hd⟩ := hbody.endsLike hc₁ h₂ hfree₁
    exact ⟨s', d', (bind_of_ok h₁' _).trans h₂', hs, hd⟩

end Statements

end Ends

end Parser

end Exemplar
