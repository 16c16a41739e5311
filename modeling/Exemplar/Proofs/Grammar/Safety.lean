import Exemplar.Proofs.Grammar.Progress

/-!
# Parsers stop with a report

A parser that stops without a result should have something to say about the source. It can also
break down, or give up in a loop that goes on without end. Here it is shown of the rules of the
grammar that they do neither, at every place a run can come to.

Three things have to be known of a place for this. Nested types are read by parsers that can
cope with a bounded number of tokens ahead, so a place is `Within` a bound, strictly if the rule
stands behind a token that was consumed; and some steps need a number of tokens to be there. All
three are indices of the class `Safe`, and its instances say how a rule hands them on to its
parts: consuming makes the bound strict, and a test that the end of the source does not pass
promises a token.

The one step of the grammar that does break down is the initial value of a member of an
enumeration. So that the statements above it can be treated alike, `Safe` leaves open at which
places that is forgiven.

Two things come from `Progress`. A loop has as many rounds as there are tokens, and one more;
since each round that goes on consumes a token, the rounds are never used up. And a rule that
returns to nested types stands behind a token that it has consumed, so the levels of nesting are
never used up either: there are as many of them as tokens.

The indices are found by the search for instances from the outside in. A rule is given a bound
and a number of tokens, and hands them over to its steps. The priorities see to it that the most
is made of each step: one that consumes makes the bound strict, one that only looks keeps the
tokens, and of any other nothing is known but that it moves on.
-/

namespace Exemplar

/-- What stopped a parser is something about the source. -/
def Halt.IsReport : Halt → Prop
  | .lexical _ _ | .unexpected _ _ => True
  | .crash _ | .exhausted => False

/-- What stopped a run from the place `c` is a report, or a slice that does not exist behind one
of the places `X`. -/
def Halt.Tolerated (X : Cursor → Prop) (c : Cursor) (e : Halt) : Prop :=
  e.IsReport ∨ (e = .crash .noSuchSlice ∧ ∃ c', c.Reaches c' ∧ X c')

/-- There are at most `n` tokens ahead, and fewer if a token has been consumed since the bound
was set. -/
def Cursor.Within (n : Nat) (behind : Bool) (c : Cursor) : Prop :=
  c.rest.length + behind.toNat ≤ n

namespace Parser

open Exemplar.Tree Exemplar.Brackets

variable {α β σ : Type} {X : Cursor → Prop} {n k : Nat} {b : Bool} {c c' : Cursor}

-- The search for an instance is as deep as the rule is long.
set_option synthInstance.maxSize 100000

/-- A run from `c` stops only for reasons that are tolerated. -/
def SafeAt (X : Cursor → Prop) (p : Parser α) (c : Cursor) : Prop :=
  ∀ e, p c = .error e → e.Tolerated X c

/-- A run from a visited place with at least `k` tokens ahead, but within the bound `n`, stops
only for reasons that are tolerated. -/
class Safe (X : Cursor → Prop) (n : Nat) (b : Bool) (k : Nat) (p : Parser α) : Prop where
  safeAt : ∀ {c : Cursor}, c.Visited → c.Within n b → k ≤ c.rest.length → SafeAt X p c

/-- A parser that is safe within every bound is safe at every visited place. -/
theorem SafeAt.of_visited {p : Parser α} [∀ n, Safe X n false 0 p] (hc : c.Visited) :
    SafeAt X p c :=
  Safe.safeAt (n := c.rest.length) (b := false) (k := 0) hc (Nat.le_refl _) (Nat.zero_le _)

namespace SafeAt

/-- A run that only stops with reports is safe. -/
theorem of_isReport {p : Parser α} (h : ∀ e, p c = .error e → e.IsReport) : SafeAt X p c :=
  fun e he => .inl (h e he)

/-- A run that succeeds is safe. -/
theorem of_ok {p : Parser α} {a : α} (h : p c = .ok (a, c')) : SafeAt X p c :=
  fun e he => by rw [h] at he; cases he

/-- What is tolerated at a later place is tolerated before. -/
theorem bind {p : Parser α} {f : α → Parser β} [Moves p] (hp : SafeAt X p c)
    (hf : ∀ {a c'}, p c = .ok (a, c') → SafeAt X (f a) c') : SafeAt X (p >>= f) c := by
  intro e he
  -- The first part stops, or the second one behind it.
  rcases bind_eq_error he with h | ⟨a, c₁, h₁, h₂⟩
  · exact hp e h
  · refine (hf h₁ e h₂).imp id ?_
    rintro ⟨rfl, c₂, hreach, hx⟩
    exact ⟨rfl, c₂, (Moves.reaches_of_ok h₁).trans hreach, hx⟩

end SafeAt

/-! ## The way parsers are put together

How the bound and the tokens ahead are handed on. A step that succeeds leads to a place that
runs come to, with no more tokens ahead than before. -/

/-- The bound holds wherever there are no more tokens ahead. -/
theorem within_of_le {c c' : Cursor} (hl : c'.rest.length ≤ c.rest.length) (hc : c.Within n b) :
    c'.Within n b :=
  Nat.le_trans (Nat.add_le_add_right hl _) hc

/-- Behind a token that was consumed the bound is strict. -/
theorem within_of_lt {c c' : Cursor} (hl : c'.rest.length < c.rest.length) (hc : c.Within n b) :
    c'.Within n true :=
  Nat.le_trans (Nat.succ_le_of_lt hl) (Nat.le_trans (Nat.le_add_right _ _) hc)

/-- A parser that only looks. Behind it, everything is as it was in front of it. -/
class Still (p : Parser α) : Prop where
  eq_of_ok : ∀ {c c' : Cursor} {a : α}, p c = .ok (a, c') → c' = c

namespace Still

instance : Still current := ⟨fun h => by cases h; rfl⟩

instance : Still here := ⟨fun h => by cases h; rfl⟩

instance : Still isIdent := ⟨fun h => by cases h; rfl⟩

instance : Still (get : Parser Cursor) := ⟨fun h => by cases h; rfl⟩

instance (n : Nat) : Still (peek n) := ⟨fun h => by
  cases n with
  | zero => cases h
  | succ n => exact (peek_eq_ok.1 h).1.symm⟩

instance bind (p : Parser α) (f : α → Parser β) [Still p] [∀ a, Still (f a)] :
    Still (p >>= f) := ⟨fun h => by
  obtain ⟨a, c₁, h₁, h₂⟩ := bind_eq_ok.1 h
  rw [eq_of_ok h₂, eq_of_ok h₁]⟩

instance (a : α) : Still (pure a : Parser α) := ⟨fun h => by cases h; rfl⟩

instance ite (P : Prop) [Decidable P] (p q : Parser α) [Still p] [Still q] :
    Still (if P then p else q) := by
  split <;> assumption

instance (f g : Token → Bool) : Still (ahead f g) := by unfold ahead; infer_instance

instance : Still atBreak := by unfold atBreak; infer_instance

end Still

namespace Safe

instance (priority := low) of_no_tokens (p : Parser α) [Safe X n b 0 p] :
    Safe X n b (k + 1) p where
  safeAt hc hn _ := safeAt (k := 0) hc hn (Nat.zero_le _)

/-- One token may be enough where there are more. -/
theorem of_one_token (p : Parser α) [Safe X n b 1 p] : Safe X n b (k + 1) p where
  safeAt hc hn hk := safeAt (k := 1) hc hn (Nat.le_trans (Nat.le_add_left _ _) hk)

/-- What copes with a bound copes with a strict one. -/
instance (priority := low) of_not_behind (p : Parser α) [Safe X n false k p] :
    Safe X n true k p where
  safeAt hc hn hk := safeAt (b := false) hc (Nat.le_trans (Nat.le_add_right _ _) hn) hk

instance (a : α) : Safe X n b k (pure a : Parser α) where
  safeAt _ _ _ := .of_ok rfl

instance (x : Complaint) : Safe X n b k (fail x : Parser α) where
  safeAt _ _ _ := .of_isReport fun e he => by cases he; trivial

instance (priority := low) bind (p : Parser α) (f : α → Parser β) [Moves p] [Safe X n b k p]
    [∀ a, Safe X n b 0 (f a)] : Safe X n b k (p >>= f) where
  safeAt hc hn hk := (safeAt hc hn hk).bind fun h =>
    safeAt (hc.of_ok h) (within_of_le (Moves.length_le h) hn) (Nat.zero_le _)

/-- The same with the second part as an argument, where no instance is found for it. -/
theorem bind_of {p : Parser α} {f : α → Parser β} [Moves p] [Safe X n b k p]
    (hf : ∀ a, Safe X n b 0 (f a)) : Safe X n b k (p >>= f) :=
  bind p f

/-- Behind a parser that consumes a token the bound is strict. -/
instance (priority := mid) bind_of_consumes (p : Parser α)
    (f : α → Parser β) [Moves p] [Consumes p]
    [Safe X n b k p] [∀ a, Safe X n true 0 (f a)] : Safe X n b k (p >>= f) where
  safeAt hc hn hk := (safeAt hc hn hk).bind fun h =>
    safeAt (hc.of_ok h) (within_of_lt (Consumes.lt_of_ok hc h) hn) (Nat.zero_le _)

/-- Behind a parser that only looks there are as many tokens as before. -/
instance (priority := mid) bind_of_still (p : Parser α) (f : α → Parser β) [Moves p] [Still p]
    [Safe X n b (k + 1) p] [∀ a, Safe X n b (k + 1) (f a)] : Safe X n b (k + 1) (p >>= f) where
  safeAt hc hn hk := (safeAt hc hn hk).bind fun h => by
    rw [Still.eq_of_ok h]
    exact safeAt hc hn hk

instance ite (P : Prop) [Decidable P] (p q : Parser α) [Safe X n b k p] [Safe X n b k q] :
    Safe X n b k (if P then p else q) := by
  split <;> assumption

instance ite_true (p q : Parser α) [Safe X n b k p] :
    Safe X n b k (if true = true then p else q) := by
  rwa [if_pos rfl]

instance ite_false (p q : Parser α) [Safe X n b k q] :
    Safe X n b k (if false = true then p else q) := by
  rwa [if_neg Bool.false_ne_true]

/-! ## Looking and consuming

To look at the current token or to consume it never breaks down: at the end of the source there
is a token that stands for it. What may happen is that the end is reached where something is
left open, and this is reported. -/

instance : Safe X n b k (get : Parser Cursor) where
  safeAt _ _ _ := .of_ok rfl

instance : Safe X n b k current where
  safeAt _ _ _ := .of_ok rfl

instance (w : String) : Safe X n b k (is w) where
  safeAt _ _ _ := .of_ok rfl

instance : Safe X n b k isIdent where
  safeAt _ _ _ := .of_ok rfl

instance : Safe X n b k isEof where
  safeAt _ _ _ := .of_ok rfl

instance : Safe X n b k here where
  safeAt _ _ _ := .of_ok rfl

instance (s : Position) : Safe X n b k (spanFrom s) where
  safeAt _ _ _ := .of_ok rfl

instance : Safe X n b k reachEnd where
  safeAt {c} _ _ _ := by
    cases hf : c.ending.fault with
    | none => exact .of_ok (reachEnd_run hf)
    | some fault =>
      refine .of_isReport fun e he => ?_
      rw [reachEnd_of_fault hf] at he
      cases he
      trivial

/-- Looking ahead of the current token finds a token or the end, or reports what is open
there. -/
instance (m : Nat) : Safe X n b k (peek (m + 1)) where
  safeAt {c} hc hn hk := by
    rw [peek]
    refine SafeAt.bind (.of_ok rfl) fun {c₁ c'} h => ?_
    cases h
    cases c.rest[m + 1]? with
    | some t => exact .of_ok rfl
    | none => exact safeAt (p := do reachEnd; return c.ending.token) hc hn hk

/-- The same where the number of tokens to look ahead is computed. -/
theorem peek_of_pos {i : Nat} (h : 0 < i) : Safe X n b k (peek i) := by
  obtain ⟨m, rfl⟩ := Nat.exists_eq_add_one.2 h
  infer_instance

instance : Safe X n b k advance where
  safeAt {c} hc hn hk := by
    cases hr : c.rest with
    | nil => exact .of_ok (advance_of_nil hr)
    | cons t more =>
      intro e he
      rw [advance_of_cons hr] at he
      split at he
      · -- the last token: what is left open behind it is reported
        cases hf : c.ending.fault with
        | none =>
          rw [bind_of_ok (reachEnd_run (c := c.past t more) hf)] at he
          cases he
        | some fault =>
          rw [bind_of_error (reachEnd_of_fault (c := c.past t more) hf)] at he
          cases he
          exact .inl trivial
      · cases he

instance (m : Nat) : Safe X n b k (advanceBy m) := by
  have key : Safe X n b 0 (advanceBy m) := by
    induction m with
    | zero => exact inferInstanceAs (Safe X n b 0 (pure ()))
    | succ m ih => unfold advanceBy; infer_instance
  cases k <;> infer_instance

instance (w : String) : Safe X n b k (got w) := by
  cases k <;> (unfold got; infer_instance)

instance (w : String) : Safe X n b k (expect w) := by
  cases k <;> (unfold expect; infer_instance)

instance (f g : Token → Bool) : Safe X n b k (ahead f g) := by
  cases k <;> (unfold ahead; infer_instance)

instance (f g h : Token → Bool) : Safe X n b k (ahead₃ f g h) := by
  cases k <;> (unfold ahead₃; infer_instance)

/-! ## Behind a test

What runs behind a word that was consumed has a strict bound; what runs behind one that was only
seen has a token to consume. -/

/-- Where a token is left, `k` more tokens are left behind it. -/
instance advance_bind (f : Token → Parser β) [∀ t, Safe X n true k (f t)] :
    Safe X n b (k + 1) (advance >>= f) where
  safeAt {c} hc hn hk := by
    have hr : c.rest ≠ [] := List.length_pos_iff.1 (Nat.lt_of_lt_of_le (Nat.succ_pos k) hk)
    refine (safeAt (k := 0) hc hn (Nat.zero_le _)).bind fun {t c'} h => ?_
    refine safeAt (k := k) (hc.of_ok h) (within_of_lt (lt_of_advance hr h) hn) ?_
    obtain ⟨more, hr, rfl⟩ := advance_inv hr h
    rw [hr, List.length_cons] at hk
    exact Nat.le_of_succ_le_succ hk

instance got_bind (w : String) (f : Bool → Parser β) [Safe X n true 0 (f true)]
    [Safe X n b 0 (f false)] : Safe X n b 0 (got w >>= f) where
  safeAt {c} hc hn hk := by
    refine (safeAt (k := 0) hc hn hk).bind fun {x c'} h => ?_
    have hle := Moves.length_le h
    have hc' := hc.of_ok h
    obtain ⟨hw, ⟨rfl, rfl⟩ | ⟨rfl, t, ht⟩⟩ := got_eq_ok h
    · exact safeAt hc hn hk
    · have hlt := lt_of_advance (hc.rest_ne_nil (Token.isEof_of_is hw.symm)) ht
      exact safeAt hc' (within_of_lt hlt hn) (Nat.zero_le _)

/-- If the current token is not the end, it is one of those that are left. -/
theorem length_pos_of_current (hc : c.Visited) (h : c.current.isEof = false) :
    1 ≤ c.rest.length :=
  List.length_pos_iff.2 (hc.rest_ne_nil h)

instance is_bind (w : String) (f : Bool → Parser β) [Safe X n b 1 (f true)]
    [Safe X n b 0 (f false)] : Safe X n b 0 (is w >>= f) where
  safeAt {c} hc hn hk e he := by
    rw [Parser.is_bind] at he
    cases hw : c.current.is w with
    | true =>
      rw [hw] at he
      exact safeAt hc hn (length_pos_of_current hc (Token.isEof_of_is hw)) e he
    | false => rw [hw] at he; exact safeAt hc hn hk e he

/-- Two tokens that are no end of the source are tokens that are left. So behind a test on two
tokens, two may be consumed. -/
theorem of_ahead {f g : Token → Bool} {h : Bool → Parser β} [OnTokens g]
    (ht : Safe X n b 2 (h true)) (hf : Safe X n b 0 (h false)) :
    Safe X n b 0 (ahead f g >>= h) where
  safeAt {c} hc hn hk := by
    refine (safeAt (k := 0) hc hn hk).bind fun {x c'} hx => ?_
    obtain rfl := Still.eq_of_ok hx
    cases x with
    | false => exact safeAt hc hn hk
    | true =>
      refine ht.safeAt hc hn ?_
      obtain ⟨-, t, hpeek, hg⟩ := ahead_eq_true hx
      obtain ⟨-, hget | ⟨-, hfault, rfl⟩⟩ := peek_eq_ok.1 hpeek
      · exact (List.getElem?_eq_some_iff.1 hget).1
      · -- the second token would be the end of the source, which passes no such test
        have heof := OnTokens.isEof_eq_false hg
        rw [Token.isEof, (hc.ending_clean hfault).kind] at heof
        cases heof

instance ahead_bind (f g : Token → Bool) (h : Bool → Parser β) [OnTokens f]
    [Safe X n b 1 (h true)] [Safe X n b 0 (h false)] : Safe X n b 0 (ahead f g >>= h) where
  safeAt {c} hc hn hk := by
    refine (safeAt (k := 0) hc hn hk).bind fun {x c'} hx => ?_
    obtain rfl := Still.eq_of_ok hx
    cases x with
    | false => exact safeAt hc hn hk
    | true =>
      have hdef : c'.rest ≠ [] := (Definite.of_true hc hx).resolve_right (Nat.lt_irrefl _)
      exact safeAt hc hn (List.length_pos_iff.2 hdef)

/-- A parser that looks at the current token has it to consume, or finds the end of the
source. -/
theorem of_current {f : Token → Parser β} (hcons : ∀ t, Safe X n b 1 (f t))
    (hnil : ∀ t : Token, t.isEof = true → Safe X n b 0 (f t)) :
    Safe X n b 0 (current >>= f) where
  safeAt {c} hc hn hk e he := by
    rw [current_bind] at he
    cases ht : c.current.isEof with
    | true => exact (hnil _ ht).safeAt hc hn hk e he
    | false => exact (hcons _).safeAt hc hn (length_pos_of_current hc ht) e he

/-! ## Loops

A round that goes on has consumed a token, so a loop with more rounds left than tokens ahead
does not run out of them. -/

/-- An invariant of a loop that makes its rounds safe, and under which they make progress. -/
theorem safeAt_collectUpTo {I : Cursor → Prop} {next : Parser (Option α)} [Moves next]
    (hsafe : ∀ {c : Cursor}, I c → SafeAt X next c)
    (hstep : ∀ {c c' : Cursor} {a : α}, I c → next c = .ok (some a, c') →
      I c' ∧ c'.rest.length < c.rest.length)
    (m : Nat) (hc : I c) (hm : c.rest.length < m) : SafeAt X (collectUpTo next m) c := by
  -- On the rounds that are left. There are more of them than tokens.
  induction m generalizing c with
  | zero => exact absurd hm (Nat.not_lt_zero _)
  | succ m ih =>
    refine (hsafe hc).bind fun {o c'} h => ?_
    cases o with
    | none => exact .of_ok rfl
    | some a =>
      obtain ⟨hc', hlt⟩ := hstep hc h
      refine (ih hc' (by omega)).bind ?_
      exact fun _ => .of_ok rfl

instance (next : Parser (Option α)) [Moves next] [Progress next] [Safe X n b 0 next] :
    Safe X n b 0 (collect next) where
  safeAt hc hn _ := safeAt_collectUpTo (I := fun c => c.Visited ∧ c.Within n b)
    (fun hI => safeAt hI.1 hI.2 (Nat.zero_le _))
    (fun hI h =>
      have hlt := Progress.lt_of_some hI.1 h
      ⟨⟨hI.1.of_ok h, within_of_le (Nat.le_of_lt hlt) hI.2⟩, hlt⟩)
    _ ⟨hc, hn⟩ (Nat.lt_succ_self _)

/-- The same for a loop that hands a value from round to round. -/
theorem safeAt_iterateUpTo (step : σ → Parser (Option σ)) [∀ s, Moves (step s)]
    [∀ s, Progress (step s)]
    [∀ s, Safe X n b 0 (step s)] (m : Nat) (s : σ) (hc : c.Visited) (hn : c.Within n b)
    (hm : c.rest.length < m) : SafeAt X (iterateUpTo step m s) c := by
  induction m generalizing c s with
  | zero => exact absurd hm (Nat.not_lt_zero _)
  | succ m ih =>
    refine (safeAt (k := 0) hc hn (Nat.zero_le _)).bind fun {o c'} h => ?_
    cases o with
    | none => exact .of_ok rfl
    | some s' =>
      have hlt := Progress.lt_of_some hc h
      exact ih s' (hc.of_ok h) (within_of_le (Nat.le_of_lt hlt) hn) (by omega)

instance (step : σ → Parser (Option σ)) [∀ s, Moves (step s)] [∀ s, Progress (step s)]
    [∀ s, Safe X n b 0 (step s)] (s : σ) : Safe X n b 0 (iterate step s) where
  safeAt hc hn _ := safeAt_iterateUpTo step _ s hc hn (Nat.lt_succ_self _)

instance (test : Parser Bool) (body : Parser Unit) [Moves test]
    [Definite test] [Safe X n b 0 test]
    [Moves body] [ConsumesAhead body] [Safe X n b 0 body] : Safe X n b 0 (whileDo test body) :=
  have : Safe X n b 0 (onceMore test body) := by unfold onceMore; infer_instance
  by unfold whileDo; infer_instance

instance (separator : String) (item : Parser α) [Moves item] [Safe X n true 0 item] :
    Safe X n b 0 (itemBehind separator item) := by
  unfold itemBehind; infer_instance

instance (closer : String) (item : Parser α) [Moves item] [Safe X n true 0 item] :
    Safe X n b 0 (itemBefore closer item) := by
  unfold itemBefore; infer_instance

instance (item : Parser α) [Moves item] [Safe X n b 0 item] [Safe X n true 0 item] :
    Safe X n b 0 (commaList₁ item) := by
  unfold commaList₁; infer_instance

instance (closer : String) (item : Parser α) [Moves item] [Safe X n b 0 item]
    [Safe X n true 0 item] : Safe X n b 0 (commaList closer item) := by
  unfold commaList; infer_instance

/-! ## Skipping

A bracket that is looked for is found, or missing, or there is a complaint. What is skipped are
groups, and a group that does not close is reported. -/

instance : Safe X n b 0 closingBracket := by
  unfold closingBracket
  refine bind_of fun c => ?_
  split <;> infer_instance

instance : Safe X n b 0 closingAngle := by
  unfold closingAngle
  refine bind_of fun c => ?_
  split <;> infer_instance

/-- Where a token is left, a group starts with it. -/
instance : Safe X n b (k + 1) skipGroup where
  safeAt {c} hc hn hk := by
    intro e he
    rw [skipGroup, get_bind] at he
    cases hscan : scanGroup? c.rest with
    | none =>
      cases hr : c.rest with
      | nil => rw [hr] at hk; cases hk
      | cons t more => rw [hr] at hscan; cases hscan
    | some found =>
      rw [hscan] at he
      cases found with
      | closed m => exact safeAt (k := 0) hc hn (Nat.zero_le _) e he
      | mismatch m =>
        exact safeAt (k := 0) (p := do advanceBy m; fail (.unbalanced (← current).text)) hc hn
          (Nat.zero_le _) e he
      | unclosed closer =>
        exact safeAt (k := 0) (p := do
          advanceBy (← get).rest.length
          (fail (.unclosed closer) : Parser Unit)) hc hn (Nat.zero_le _) e he

instance : Safe X n b 0 skipTypeArguments := by
  unfold skipTypeArguments
  refine bind_of fun o => ?_
  cases o <;> infer_instance

instance : Safe X n b 0 atBreak := by unfold atBreak; infer_instance

instance (first : Bool) : Safe X n b 0 (statementRound first) := by
  unfold statementRound
  refine of_current (fun t => ?_) fun t ht => ?_
  · infer_instance
  · rw [ht, if_pos rfl]; infer_instance

instance (first : Bool) : Safe X n b 0 (expressionRound first) := by
  unfold expressionRound
  refine of_current (fun t => ?_) fun t ht => ?_
  · infer_instance
  · rw [ht, if_pos rfl]; infer_instance

instance : Safe X n b 0 skipStatement := by unfold skipStatement; infer_instance

instance : Safe X n b 0 skipExpression := by unfold skipExpression; infer_instance

/-! ## Types

The rules by their form, first those without nested types, then those that have a parser for
nested types as a parameter. The parameter is safe within a strict bound, so each use of it has
to stand behind a token. -/

instance : Safe X n b 0 identifier := by unfold identifier; infer_instance

instance : Safe X n b 0 namePart := by unfold namePart; infer_instance

instance : Safe X n b 0 entityName := by unfold entityName; infer_instance

instance : Safe X n b 0 skipDecorators := by unfold skipDecorators; infer_instance

/-- A branch that the end of the source does not take. At the end of the source the current
token is known, and it fails the tests for words. -/
theorem ite_of_isEof {P : Prop} [Decidable P] {p q : Parser α} {t : Token} (ht : t.isEof = true)
    (h : P → t.isEof = false) [Safe X n b 0 q] : Safe X n b 0 (if P then p else q) := by
  rw [if_neg fun hp => by rw [h hp] at ht; cases ht]
  assumption

instance : Safe X n b 0 propertyName := by
  unfold propertyName
  refine of_current (fun t => inferInstance) fun t ht => ?_
  have : Safe X n b 0 (if t.is "[" = true then do skipGroup; return none
      else fail .propertyNameExpected : Parser (Option Identifier)) :=
    ite_of_isEof ht Token.isEof_of_is
  infer_instance

instance : Safe X n b 0 parameterName := by
  unfold parameterName
  refine of_current (fun t => inferInstance) fun t ht => ?_
  have : Safe X n b 0 (if (t.is "\x7b" || t.is "[") = true then do skipGroup; return none
      else fail .parameterNameExpected : Parser (Option Identifier)) :=
    ite_of_isEof ht fun h =>
      ((Bool.or_eq_true _ _).mp h).elim Token.isEof_of_is Token.isEof_of_is
  infer_instance

instance (test : Parser Bool) [Moves test] [Safe X n b 0 test] :
    Safe X n b 0 (modifierWord test) := by
  unfold modifierWord; infer_instance

instance (test : Parser Bool) [Moves test] [Definite test] [Safe X n b 0 test] :
    Safe X n b 0 (modifiersWhile test) := by
  unfold modifiersWhile; infer_instance

/-! From here on a rule is safe by its form: each test it makes is followed by what the test has
found, and each loop in it has rounds that make progress. -/

instance : Safe X n b 0 skipDefault := by unfold skipDefault; infer_instance

instance : Safe X n b 0 readonlyModifier := by unfold readonlyModifier; infer_instance

instance : Safe X n b 0 memberEnd := by unfold memberEnd; infer_instance

instance : Safe X n b 0 accessorAhead := by unfold accessorAhead; infer_instance

instance : Safe X n b 0 indexSignatureAhead := by unfold indexSignatureAhead; infer_instance

instance : Safe X n b 0 argumentsAhead := by unfold argumentsAhead; infer_instance

instance : Safe X n b 0 namedElementAhead := by unfold namedElementAhead; infer_instance

instance : Safe X n b 0 mappedTypeAhead := by
  unfold mappedTypeAhead
  refine bind_of fun sign => ?_
  -- the places looked at depend on the words found, but none of them is the current one
  have hi : 0 < if (sign.is "+" || sign.is "-") = true then 2 else 1 := by split <;> omega
  have := peek_of_pos (X := X) (n := n) (b := b) (k := 0) hi
  refine bind_of fun word => ?_
  have hj : 0 < if word.is "readonly" = true then
      (if (sign.is "+" || sign.is "-") = true then 2 else 1) + 1
    else if (sign.is "+" || sign.is "-") = true then 2 else 1 := by split <;> omega
  have := peek_of_pos (X := X) (n := n) (b := b) (k := 0) hj
  infer_instance

instance (a b' : String) : Safe X n b 0 (skipEither a b') := by unfold skipEither; infer_instance

instance (start : Position) : Safe X n b 0 (literalType start) := by
  unfold literalType; infer_instance

instance (start : Position) : Safe X n b 0 (negativeType start) := by
  unfold negativeType; infer_instance

instance : Safe X n b 0 extendsAhead := by unfold extendsAhead; infer_instance

instance : Safe X n b 0 functionTypeAhead := by
  unfold functionTypeAhead
  refine bind_of fun t => ?_
  refine @ite _ _ _ _ _ _ _ _ _ inferInstance (@ite _ _ _ _ _ _ _ _ _ ?_ inferInstance)
  refine bind_of fun o => ?_
  cases o <;> infer_instance

instance : Safe X n b 0 constructorTypeAhead := by unfold constructorTypeAhead; infer_instance

section Nested

variable (type : Parser TypeExpr) [Moves type] [Safe X n true 0 type] (start : Position)

/-! Most rules are safe under any bound, since a word or a bracket is consumed before the first
nested type. The result of a function and an element of a tuple are not: nothing stands in front
of the type in them, so they need a strict bound, and it comes from the mark in front of
them. -/

instance (mark : String) : Safe X n b 0 (typeBehind mark type) := by
  unfold typeBehind; infer_instance

instance : Safe X n b 0 (parameter type) := by unfold parameter; infer_instance

instance : Safe X n b 0 (parameters type) := by unfold parameters; infer_instance

instance : Safe X n b 0 (typeParameter type) := by unfold typeParameter; infer_instance

instance : Safe X n b 0 (typeParameters? type) := by unfold typeParameters?; infer_instance

instance : Safe X n true 0 (returnType type) := by unfold returnType; infer_instance

instance : Safe X n b 0 (resultType? type) := by unfold resultType?; infer_instance

instance (construct : Bool) : Safe X n b 0 (callSignature type start construct) := by
  unfold callSignature; infer_instance

instance : Safe X n b 0 (indexSignature type start) := by unfold indexSignature; infer_instance

instance : Safe X n b 0 (accessorSignature type start) := by
  unfold accessorSignature; infer_instance

instance (modifiers : Modifiers) : Safe X n b 0 (namedMember type start modifiers) := by
  unfold namedMember; infer_instance

instance : Safe X n b 0 (member type) := by unfold member; infer_instance

instance : Safe X n b 0 (nextMember type) := by unfold nextMember; infer_instance

instance : Safe X n b 0 (members type) := by unfold members; infer_instance

instance : Safe X n b 0 (typeArguments type) := by unfold typeArguments; infer_instance

instance : Safe X n b 0 (typeArguments? type) := by unfold typeArguments?; infer_instance

instance : Safe X n b 0 (typeReference type) := by unfold typeReference; infer_instance

instance : Safe X n true 0 (tupleElement type) := by unfold tupleElement; infer_instance

instance : Safe X n b 0 (tupleType type start) := by unfold tupleType; infer_instance

instance : Safe X n b 0 (mappedParameter type) := by unfold mappedParameter; infer_instance

instance : Safe X n b 0 (mappedType type start) := by unfold mappedType; infer_instance

instance : Safe X n b 0 (typeQuery type start) := by unfold typeQuery; infer_instance

instance : Safe X n b 0 (wordType type start) := by unfold wordType; infer_instance

/-- The parenthesis is consumed before the type in it is read. -/
instance : Safe X n b (k + 1) (parenthesizedType type start) :=
  have : Safe X n b 1 (parenthesizedType type start) := by
    unfold parenthesizedType; infer_instance
  of_one_token _

instance : Safe X n b 0 (bracedType type start) := by unfold bracedType; infer_instance

instance : Safe X n b 0 (markedType type start) := by
  unfold markedType
  refine of_current (fun t => inferInstance) fun t ht => ?_
  have : Safe X n b 0 (if t.is "(" = true then parenthesizedType type start
      else if t.is "[" = true then tupleType type start
      else if t.is "\x7b" = true then bracedType type start
      else fail .typeExpected) := ite_of_isEof ht Token.isEof_of_is
  infer_instance

instance : Safe X n b 0 (atomType type) := by
  unfold atomType
  refine bind_of fun start => bind_of fun t => ?_
  split <;> infer_instance

instance (t : TypeExpr) : Safe X n b 0 (bracketed? type t) := by
  unfold bracketed?
  refine of_current (fun bracket => inferInstance) fun bracket hb => ?_
  exact ite_of_isEof hb fun h => Token.isEof_of_is (Bool.and_eq_true_iff.1 h).1

instance : Safe X n b 0 (postfixType type) := by unfold postfixType; infer_instance

instance (item : Parser TypeExpr) [Moves item] [Safe X n b 0 item] [Safe X n true 0 item]
    (separator : String) (build : Span → List TypeExpr → TypeExpr) :
    Safe X n b 0 (separated separator item build) := by
  unfold separated
  refine bind_of fun start => bind_of fun _ => bind_of fun first => bind_of fun more => ?_
  cases more <;> infer_instance

instance : Safe X n b 0 (functionType type start) := by unfold functionType; infer_instance

instance : Safe X n b 0 (constructorType type start) := by unfold constructorType; infer_instance

end Nested

/-- The parsers for nested types are safe within a strict bound. They are the three parsers to
which the rules return. -/
class NestedSafe (X : Cursor → Prop) (n : Nat) (nested : Nested) : Prop where
  type : Safe X n true 0 nested.type
  union : Safe X n true 0 nested.union
  operator : Safe X n true 0 nested.operator

attribute [instance] NestedSafe.type NestedSafe.union NestedSafe.operator

section Levels

variable (nested : Nested) [Moves.NestedMoves nested] [NestedSafe X n nested]

instance : Safe X n true 0 (inferBound nested.union) := by unfold inferBound; infer_instance

instance : Safe X n b 0 (operatorType nested) := by unfold operatorType; infer_instance

instance : Safe X n b 0 (intersectionType nested) := by unfold intersectionType; infer_instance

instance : Safe X n b 0 (unionType nested) := by unfold unionType; infer_instance

instance (start : Position) : Safe X n b 0 (conditionalType nested start) := by
  unfold conditionalType; infer_instance

instance : Safe X n b 0 (anyType nested) := by unfold anyType; infer_instance

end Levels

/-- **Nested types are read safely within the depth.** With no depth left there is no token ahead
that could be read, and a rule reads nested types only behind a token. -/
instance nested (n : Nat) : NestedSafe X n (nested n) := by
  induction n with
  -- Less than no token ahead: there is no such place.
  | zero =>
    have key : ∀ {p : Parser TypeExpr}, Safe X 0 true 0 p :=
      fun {p} => ⟨fun {c} _ hn _ => absurd hn (Nat.not_succ_le_zero _)⟩
    exact ⟨key, key, key⟩
  | succ n ih =>
    have key : ∀ {p : Parser TypeExpr}, Safe X n false 0 p → Safe X (n + 1) true 0 p :=
      fun h => ⟨fun hc hn hk => h.safeAt hc (Nat.le_of_succ_le_succ hn) hk⟩
    exact ⟨key (inferInstanceAs (Safe X n false 0 (anyType (Parser.nested n)))),
      key (inferInstanceAs (Safe X n false 0 (unionType (Parser.nested n)))),
      key (inferInstanceAs (Safe X n false 0 (operatorType (Parser.nested n))))⟩

/-- A type is read safely wherever it starts. -/
instance : Safe X n b 0 typeExpr where
  safeAt {c} hc _ _ e he :=
    (nested (X := X) (c.rest.length + 1)).type.safeAt hc (Nat.le_refl _) (Nat.zero_le _) e he

instance : Safe X n b 0 wholeType := by unfold wholeType; infer_instance

/-! ## Units

The rules for statements start a new tree of types wherever they need a type, with as many
levels as there are tokens ahead. So for them the bound does not matter. -/

instance : Safe X n b 0 statementMayEnd := by unfold statementMayEnd; infer_instance

instance : Safe X n b 0 semicolon := by unfold semicolon; infer_instance

instance : Safe X n b 0 functionBody := by unfold functionBody; infer_instance

instance : Safe X n b 0 arrowAhead := by
  unfold arrowAhead
  refine bind_of fun o => ?_
  cases o <;> infer_instance

instance : Safe X n b 0 genericArrowAhead := by
  unfold genericArrowAhead
  refine bind_of fun o => ?_
  cases o <;> infer_instance

/-! Functions that are values, and then classes. A rule that consumes a token whatever it is
(`bindingName`, `staticBlock`) promises to be safe only where tokens are left, and each use of
it stands behind a test that has seen them. -/

instance : Safe X n b 0 bareParameter := by unfold bareParameter; infer_instance

instance : Safe X n b 0 arrowSignature := by unfold arrowSignature; infer_instance

instance : Safe X n b 0 arrowBody := by unfold arrowBody; infer_instance

instance (start : Position) (modifiers : Modifiers) :
    Safe X n b 0 (arrowFunction start modifiers) := by
  unfold arrowFunction; infer_instance

instance : Safe X n b 0 identifier? := by unfold identifier?; infer_instance

instance : Safe X n b 0 skipBlock := by unfold skipBlock; infer_instance

instance (start : Position) (modifiers : Modifiers) :
    Safe X n b 0 (functionExpression start modifiers) := by
  unfold functionExpression; infer_instance

instance : Safe X n b 0 asyncAhead := by unfold asyncAhead; infer_instance

instance : Safe X n b 0 asyncModifier := by unfold asyncModifier; infer_instance

instance : Safe X n b 0 arrowFunctionAhead := by unfold arrowFunctionAhead; infer_instance

instance : Safe X n b 0 initializer := by unfold initializer; infer_instance

instance : Safe X n b 0 skipAccessorWord := by unfold skipAccessorWord; infer_instance

instance (start : Position) (modifiers : Modifiers) :
    Safe X n b 0 (constructorMember start modifiers) := by
  unfold constructorMember; infer_instance

/-- The word before the block is consumed, and the block is still there. -/
instance (start : Position) : Safe X n b 2 (staticBlock start) := by
  unfold staticBlock; infer_instance

instance (start : Position) : Safe X n b 0 (indexMember start) := by
  unfold indexMember; infer_instance

instance (start : Position) (modifiers : Modifiers) :
    Safe X n b 0 (namedClassMember start modifiers) := by
  unfold namedClassMember; infer_instance

instance : Safe X n b 0 classMember := by
  unfold classMember
  refine bind_of fun start => bind_of fun _ => ?_
  exact of_ahead inferInstance inferInstance

instance : Safe X n b 0 nextClassMember := by unfold nextClassMember; infer_instance

instance : Safe X n b 0 classMembers := by unfold classMembers; infer_instance

instance : Safe X n b 0 plainBase := by unfold plainBase; infer_instance

instance : Safe X n b 0 skipItem := by
  unfold skipItem
  refine of_current (fun t => inferInstance) fun t ht => ?_
  exact ite_of_isEof ht fun h =>
    ((Bool.or_eq_true _ _).mp h).elim Token.isEof_of_is Token.isEof_of_is

instance : Safe X n b 0 baseClass := by
  unfold baseClass
  refine bind_of fun o => ?_
  cases o <;> infer_instance

instance : Safe X n b 0 className := by unfold className; infer_instance

instance : Safe X n b 0 extendsClause := by unfold extendsClause; infer_instance

instance (word : String) : Safe X n b 0 (referencesBehind word) := by
  unfold referencesBehind; infer_instance

instance (start : Position) (modifiers : Modifiers) :
    Safe X n b 0 (classDecl start modifiers) := by
  unfold classDecl; infer_instance

instance (start : Position) (modifiers : Modifiers) :
    Safe X n b 0 (interfaceDecl start modifiers) := by
  unfold interfaceDecl; infer_instance

instance : Safe X n b (k + 1) bindingName :=
  have : Safe X n b 1 bindingName := by unfold bindingName; infer_instance
  of_one_token _

instance : Safe X n b 0 initializer? := by unfold initializer?; infer_instance

instance : Safe X n b 1 declarator := by unfold declarator; infer_instance

instance : Safe X n b 0 declarator? := by
  unfold declarator?
  refine of_current (fun t => inferInstance) fun t ht => ?_
  refine ite_of_isEof ht fun h => ?_
  rw [startsBinding, Bool.or_eq_true, Bool.or_eq_true] at h
  exact h.elim (fun h => h.elim Token.isEof_of_isIdent Token.isEof_of_is) Token.isEof_of_is

instance : Safe X n b 0 nextDeclarator := by unfold nextDeclarator; infer_instance

instance : Safe X n b 0 declarators := by
  unfold declarators
  refine bind_of fun o => ?_
  cases o <;> infer_instance

instance : Safe X n b 0 variablesEnd := by unfold variablesEnd; infer_instance

instance (start : Position) (modifiers : Modifiers) :
    Safe X n b 0 (variableDecl start modifiers) := by
  unfold variableDecl; infer_instance

instance (start : Position) (modifiers : Modifiers) :
    Safe X n b 0 (functionDecl start modifiers) := by
  unfold functionDecl; infer_instance

instance (start : Position) (modifiers : Modifiers) :
    Safe X n b 0 (typeAlias start modifiers) := by
  unfold typeAlias; infer_instance

instance (before : Modifiers) : Safe X n b 0 (modifierRound before) := by
  unfold modifierRound; infer_instance

instance : Safe X n b 0 statementModifiers := by unfold statementModifiers; infer_instance

instance (start : Position) (first : Text) : Safe X n b 0 (otherStatement start first) := by
  unfold otherStatement; infer_instance

end Safe

end Parser

end Exemplar
