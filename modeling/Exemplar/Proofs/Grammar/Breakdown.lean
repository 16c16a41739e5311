import Exemplar.Proofs.Grammar.Safety
import Exemplar.Diagnostic

/-!
# Where a parser breaks down

Reading a type never breaks down, and reading a unit breaks down at one place of the grammar
only: the initial value of a member of an enumeration. Its text is the piece of the source from
the first token behind the equals sign to the last token consumed. If the value is missing
nothing is consumed behind the sign, and if there is a gap in between as well, the piece would
end before it starts.

Everything else about enumerations is safe for the order of the tokens in the source. The key of
a member that is computed is a piece of the source, too, but a group has been consumed for it.

That a rule is safe is found by the search for instances, as in the module on safety, but for
the rules about enumerations. These are safe from some places only: where the value of a member
is read it is known which member that is, and the place is handed on from one to the next
(`Cursor.AtMember`). So what is reported in the end is not only that the reading broke down but
at which member.
-/

namespace Exemplar

open Exemplar.Tree

/-- Whether an expression cannot start with a token: the end of the source, a comma, a semicolon
or a closing bracket. -/
def Token.endsExpression (t : Token) : Bool := t.isEof || (t.is "," || t.is ";" || t.isCloser)

namespace Parser

variable {α : Type} {X : Cursor → Prop} {n : Nat} {b : Bool} {c c' : Cursor}

-- The search for an instance is as deep as the rule is long.
set_option synthInstance.maxSize 100000

/-! ## Empty expressions

Whether an expression is empty is decided by the token it starts at. -/

/-- Where an expression cannot start, an empty one is skipped. -/
theorem skipExpression_run (h : c.current.endsExpression = true) :
    skipExpression c = .ok ((), c) := by
  have hround : expressionRound true c = .ok (none, c) := by
    rw [Token.endsExpression, Bool.or_eq_true] at h
    rw [expressionRound, current_bind, ite_run]
    split
    · rfl
    · show (atBreak >>= fun x => if (!true && x) = true then _ else _) c = _
      rw [bind_of_ok (show atBreak c = .ok (_, c) from rfl), Bool.not_true, Bool.false_and,
        if_neg Bool.false_ne_true]
      rw [if_pos (h.resolve_left (by assumption))]
      rfl
  rw [skipExpression, bind_of_ok (iterate_run _ _ c ▸ iterateUpTo_of_none hround _)]
  rfl

/-- Where an expression can start, it is not empty. -/
theorem lt_of_skipExpression {u : Unit} (hc : c.Visited) (h : c.current.endsExpression = false)
    (hs : skipExpression c = .ok (u, c')) : c'.rest.length < c.rest.length := by
  obtain ⟨heof, hstop⟩ := Bool.or_eq_false_iff.1 h
  -- The first round does not stop, so it consumes a token.
  have hfirst : ∀ {o : Option Bool} {c₁ : Cursor}, expressionRound true c = .ok (o, c₁) →
      c₁.rest.length < c.rest.length := by
    intro o c₁ hround
    rw [expressionRound, current_bind, heof, if_neg Bool.false_ne_true] at hround
    obtain ⟨x, c₂, hbreak, hround⟩ := bind_eq_ok.1 hround
    obtain rfl := Still.eq_of_ok hbreak
    rw [Bool.not_true, Bool.false_and, if_neg Bool.false_ne_true, hstop,
      if_neg Bool.false_ne_true] at hround
    exact ConsumesAhead.lt_of_ok (p := if c₂.current.isOpener = true then do
        skipGroup
        return some false
      else if c₂.current.is "<" = true then do
        skipTypeArguments
        return some false
      else do
        let _ ← advance
        return some false) hc (hc.rest_ne_nil heof) hround
  rw [skipExpression] at hs
  obtain ⟨x, c₁, hloop, hlast⟩ := bind_eq_ok.1 hs
  obtain ⟨-, rfl⟩ := pure_eq_ok.1 hlast
  rw [iterate_run] at hloop
  obtain ⟨m, -, ⟨-, hround⟩ | ⟨y, c₂, hround, hmore⟩⟩ := iterateUpTo_eq_ok hloop
  · exact hfirst hround
  · exact Nat.lt_of_le_of_lt (Moves.length_le hmore) (hfirst hround)

/-! ## Pieces of the source

A piece is there if it does not end before it starts. The end of the token that was consumed
last is a place in the source, so it never reaches beyond. -/

/-- A piece is cut out if there is one. -/
theorem sourceFrom_run (start : Position) (c : Cursor) : sourceFrom start c =
    if c.lastStop.offset < start.offset || c.source.byteSize < c.lastStop.offset then
      .error (.crash .noSuchSlice)
    else .ok (c.source.slice start.offset c.lastStop.offset, c) := by
  rw [sourceFrom, get_bind, ite_run]
  rfl

/-- A piece that starts no later than the token consumed last stops is there. -/
theorem sourceFrom_of_le {start : Position} (hc : c.Visited)
    (h : start.offset ≤ c.lastStop.offset) :
    sourceFrom start c = .ok (c.source.slice start.offset c.lastStop.offset, c) := by
  have hle := hc.ordered.lastStop_le
  rw [sourceFrom_run, if_neg]
  simp only [Bool.or_eq_true, decide_eq_true_eq]
  omega

/-- A piece of the source from the current token on is there as soon as a token is consumed. -/
theorem start_le_lastStop (hc : c.Visited) (h : c.Reaches c')
    (hlt : c'.rest.length < c.rest.length) : c.current.start.offset ≤ c'.lastStop.offset := by
  cases h with
  | refl => exact absurd hlt (Nat.lt_irrefl _)
  | @past _ _ t more hr h =>
    rw [Cursor.current_of_cons hr]
    exact Nat.le_trans (hc.ordered.token t (by simp [hr])).1
      (h.ordered (hc.ordered.past hr)).2

end Parser

/-! ## Members of enumerations

The members are read in a loop. Its invariant is that a place where a round starts is behind a
member, so that behind a comma another may start. -/

open Exemplar.Parser

/-- The value of a member is announced, but what follows the sign is a gap and then a token that
no expression starts with. -/
def Cursor.LacksValue (c : Cursor) : Prop :=
  ∃ c₁, got "=" c = .ok (true, c₁) ∧ c₁.lastStop.offset < c₁.current.start.offset ∧
    c₁.current.endsExpression = true

/-- A place inside the body of an enumeration where a member may start. -/
inductive Cursor.AtMember : Cursor → Prop
  /-- The first member may start behind the opening brace. -/
  | first {c₀ c₁ c₂ c₃ : Cursor} {name : Identifier} (hc : c₀.Visited)
    (hword : expect "enum" c₀ = .ok ((), c₁)) (hname : identifier c₁ = .ok (name, c₂))
    (hbrace : expect "\x7b" c₂ = .ok ((), c₃)) : AtMember c₃
  /-- Another may start behind a member and a comma. -/
  | next {c₀ c₁ c₂ : Cursor} {m : EnumMember} (h : AtMember c₀)
    (hmember : enumMember c₀ = .ok (m, c₁)) (hcomma : got "," c₁ = .ok (true, c₂)) : AtMember c₂

/-- A place behind the key of a member of an enumeration whose value is announced but missing. -/
structure Cursor.BreaksDown (c : Cursor) : Prop where
  /-- The key of a member has been read. -/
  member : ∃ c₀ name, AtMember c₀ ∧ enumMemberName c₀ = .ok (name, c)
  /-- There is a gap in place of its value. -/
  value : c.LacksValue

/-- Such a place was reached by consuming tokens. -/
theorem Cursor.AtMember.visited {c : Cursor} (h : c.AtMember) : c.Visited := by
  induction h with
  | first hc hword hname hbrace => exact ((hc.of_ok hword).of_ok hname).of_ok hbrace
  | next _ hmember hcomma ih => exact (ih.of_ok hmember).of_ok hcomma

namespace Parser

set_option synthInstance.maxSize 100000

/-- A parser that nothing is forgiven stops with a report. -/
theorem isReport_of_error {p : Parser α} [∀ n, Safe (fun _ => False) n false 0 p] {e : Halt}
    (hc : c.Visited) (h : p c = .error e) : e.IsReport :=
  (SafeAt.of_visited hc e h).resolve_right fun ⟨_, _, _, hfalse⟩ => hfalse

instance : Safe X n b 0 enumMemberName where
  safeAt {c} hc hn hk e he := by
    rw [enumMemberName, here_bind, current_bind, ite_run] at he
    split at he
    · exact Safe.safeAt (p := do return (← advance).text) hc hn hk e he
    rw [ite_run] at he
    split at he
    · rename_i hbracket
      rcases bind_eq_error he with hgroup | ⟨_, c₁, hgroup, hpiece⟩
      · exact Safe.safeAt hc hn
          (Safe.length_pos_of_current hc (Token.isEof_of_is hbracket)) e hgroup
      · -- a group was consumed, so there is a piece of the source to take
        have hle :=
          start_le_lastStop hc (Moves.reaches_of_ok hgroup) (Consumes.lt_of_ok hc hgroup)
        rw [sourceFrom_of_le (hc.of_ok hgroup) hle] at hpiece
        cases hpiece
    · exact Safe.safeAt (p := fail .enumMemberNameExpected) hc hn hk e he

/-- **The value of a member is read safely unless it is missing.** -/
theorem enumMemberValue_error {e : Halt} (hc : c.Visited) (h : enumMemberValue c = .error e) :
    e.IsReport ∨ (e = .crash .noSuchSlice ∧ c.LacksValue) := by
  rcases bind_eq_error h with hsign | ⟨sign, c₁, hsign, h⟩
  · exact .inl (isReport_of_error hc hsign)
  cases sign with
  | false => cases h
  | true =>
    rw [if_pos rfl, here_bind] at h
    have hc₁ := hc.of_ok hsign
    rcases bind_eq_error h with hskip | ⟨_, c₂, hskip, h⟩
    · exact .inl (isReport_of_error hc₁ hskip)
    -- If an expression can start there, something is consumed, and the piece is not cut at the
    -- wrong end.
    cases hend : c₁.current.endsExpression with
    | true =>
      rw [skipExpression_run hend] at hskip
      obtain rfl := (Prod.mk.inj (Except.ok.inj hskip)).2
      by_cases hgap : c₁.lastStop.offset < c₁.current.start.offset
      · rw [sourceFrom_run, if_pos (by simp [hgap])] at h
        cases h
        exact .inr ⟨rfl, c₁, hsign, hgap, hend⟩
      · rw [sourceFrom_of_le hc₁ (Nat.le_of_not_lt hgap)] at h
        cases h
    | false =>
      have hlt := lt_of_skipExpression hc₁ hend hskip
      rw [sourceFrom_of_le (hc₁.of_ok hskip)
        (start_le_lastStop hc₁ (Moves.reaches_of_ok hskip) hlt)] at h
      cases h

/-- A member is read safely, unless its value is missing. -/
theorem safeAt_enumMember (hc : c.AtMember) : SafeAt Cursor.BreaksDown enumMember c := by
  refine SafeAt.bind (.of_ok rfl) fun {_ c'} h => ?_
  cases h
  refine SafeAt.bind (.of_visited hc.visited) fun {name c₁} hn => ?_
  refine SafeAt.bind (fun e he => ?_) fun _ => .of_ok rfl
  refine (enumMemberValue_error (hc.visited.of_ok hn) he).imp id ?_
  rintro ⟨rfl, hvalue⟩
  exact ⟨rfl, c₁, .refl _, ⟨⟨c, name, hc, hn⟩, hvalue⟩⟩

/-- **The members of an enumeration are read safely**, each from a place where one may start,
unless a value is missing. -/
theorem safeAt_enumMembers (hc : c.AtMember) :
    SafeAt Cursor.BreaksDown (commaList "\x7d" enumMember) c := by
  -- between two rounds the place is behind a member
  let Behind (c : Cursor) : Prop := ∃ c₀ m, c₀.AtMember ∧ enumMember c₀ = .ok (m, c)
  have hvisited : ∀ {c : Cursor}, Behind c → c.Visited :=
    fun ⟨_, _, hc₀, hm⟩ => hc₀.visited.of_ok hm
  have hround : ∀ {c : Cursor}, Behind c →
      SafeAt Cursor.BreaksDown (itemBefore "\x7d" enumMember) c := by
    intro c hb
    refine SafeAt.bind (.of_visited (hvisited hb)) fun {x c₁} hx => ?_
    cases x with
    | false => exact .of_ok rfl
    | true =>
      obtain ⟨c₀, m, hc₀, hm⟩ := hb
      refine SafeAt.bind (.of_ok rfl) fun {y c₂} hy => ?_
      cases hy
      intro e he
      rw [ite_run] at he
      split at he
      · cases he
      · exact (safeAt_enumMember (.next hc₀ hm hx)).bind (fun _ => .of_ok rfl) e he
  have hstep : ∀ {c c' : Cursor} {m : EnumMember}, Behind c →
      itemBefore "\x7d" enumMember c = .ok (some m, c') →
      Behind c' ∧ c'.rest.length < c.rest.length := by
    intro c c' m hb h
    refine ⟨?_, Progress.lt_of_some (hvisited hb) h⟩
    obtain ⟨c₀, m₀, hc₀, hm₀⟩ := hb
    obtain ⟨c₁, hx, hm⟩ := itemBefore_eq_some h
    exact ⟨c₁, m, .next hc₀ hm₀ hx, hm⟩
  refine SafeAt.bind (.of_ok rfl) fun {x c₁} hx => ?_
  cases hx
  intro e he
  rw [ite_run] at he
  split at he
  · cases he
  · refine (safeAt_enumMember hc).bind (fun {m c₁} hm => ?_) e he
    refine SafeAt.bind ?_ fun _ => .of_ok rfl
    exact Safe.safeAt_collectUpTo hround hstep _ ⟨c, m, hc, hm⟩ (Nat.lt_succ_self _)

instance (start : Position) (modifiers : Modifiers) :
    Safe Cursor.BreaksDown n b 0 (enumDecl start modifiers) where
  safeAt {c} hc _ _ := by
    refine SafeAt.bind (.of_visited hc) fun hword => ?_
    refine SafeAt.bind (.of_visited (hc.of_ok hword)) fun hname => ?_
    refine SafeAt.bind (.of_visited ((hc.of_ok hword).of_ok hname)) fun hbrace => ?_
    have hmember := Cursor.AtMember.first hc hword hname hbrace
    refine SafeAt.bind (safeAt_enumMembers hmember) fun hmembers => ?_
    exact SafeAt.bind (.of_visited (hmember.visited.of_ok hmembers)) fun _ => .of_ok rfl

/-! ## Whole sources -/

instance (start : Position) (first : Text) :
    Safe Cursor.BreaksDown n b 0 (statementFrom start first) := by
  unfold statementFrom; infer_instance

instance : Safe Cursor.BreaksDown n b 0 statement? := by unfold statement?; infer_instance

instance : Safe Cursor.BreaksDown n b 0 nextStatement := by unfold nextStatement; infer_instance

instance (name : String) : Safe Cursor.BreaksDown n b 0 (sourceUnit name) := by
  unfold sourceUnit; infer_instance

/-- The first place of a run is visited unless the source ends there with something open. -/
theorem visited_startOf {source : Text}
    (h : (startOf source).rest = [] → (startOf source).ending.fault = none) :
    (startOf source).Visited :=
  ⟨.refl _, h⟩

/-- A safe parser stops on a source only for reasons that are tolerated. -/
theorem tolerated_of_run {p : Parser α} [∀ n, Safe X n false 0 p] {source : Text} {e : Halt}
    (h : run p source = .error e) : e.Tolerated X (startOf source) := by
  rcases run_eq_error h with ⟨fault, -, rfl⟩ | ⟨hvisited, h⟩
  · exact .inl trivial
  · exact SafeAt.of_visited (visited_startOf hvisited) e h

end Parser

/-- A report has a diagnostic. -/
theorem Halt.IsReport.exists_diagnostic {e : Halt} (h : e.IsReport) (file : String) :
    ∃ d, e.diagnostic? file = some d := by
  cases e with
  | lexical fault range => exact ⟨_, rfl⟩
  | unexpected complaint found => exact ⟨_, rfl⟩
  | crash => exact h.elim
  | exhausted => exact h.elim

/-- **Parsers break down at one place only.** Whatever the bytes of a source are, reading a type
from it yields a type or a diagnostic. Reading a unit yields a unit or a diagnostic, too, unless
the run comes to the value of a member of an enumeration that is announced but missing, with a
gap in its place; then a piece of the source is taken that would end before it starts. Nothing
else that has no result everywhere is ever done where it has none. -/
theorem parse_breaks_down_only (bytes : List UInt8) (file name : String) :
    ((∃ t, TypeExpr.parse (Text.decode bytes) = .ok t) ∨
      ∃ e d, TypeExpr.parse (Text.decode bytes) = .error e ∧ e.diagnostic? file = some d) ∧
    ((∃ u, SourceUnit.parse name (Text.decode bytes) = .ok u) ∨
      (∃ e d, SourceUnit.parse name (Text.decode bytes) = .error e ∧ e.diagnostic? file = some d)
      ∨ (SourceUnit.parse name (Text.decode bytes) = .error (.crash .noSuchSlice) ∧
        ∃ c, (startOf (Text.decode bytes)).Reaches c ∧ c.BreaksDown)) := by
  constructor
  · cases h : TypeExpr.parse (Text.decode bytes) with
    | ok t => exact .inl ⟨t, rfl⟩
    | error e =>
      rcases tolerated_of_run (X := fun _ => False) h with hreport | ⟨-, _, -, hfalse⟩
      · obtain ⟨d, hd⟩ := hreport.exists_diagnostic file
        exact .inr ⟨e, d, rfl, hd⟩
      · exact hfalse.elim
  · cases h : SourceUnit.parse name (Text.decode bytes) with
    | ok u => exact .inl ⟨u, rfl⟩
    | error e =>
      right
      rcases tolerated_of_run (X := Cursor.BreaksDown) h with hreport | ⟨rfl, c, hreach, hc⟩
      · obtain ⟨d, hd⟩ := hreport.exists_diagnostic file
        exact .inl ⟨e, d, rfl, hd⟩
      · exact .inr ⟨rfl, c, hreach, hc⟩

/-- A blank in place of a value is such a gap. -/
example : (SourceUnit.parse "unit" (Text.ofString "enum E \x7b A = , \x7d")).map (fun _ => ()) =
    .error (.crash .noSuchSlice) := by decide +kernel

end Exemplar
