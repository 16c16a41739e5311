import Exemplar.Proofs.Grammar.NestedBrackets
import Exemplar.Proofs.Grammar.WordReadings

/-!
# Reading what is skipped

A group around a properly nested sequence is skipped as a whole. An expression that is one group
ends behind it if the next token stands on a new line and cannot go on with an expression: what
was consumed last is then a closing bracket, and nothing is left to wait for.

Bodies of methods and initial values are skipped like this in what the generator writes. What is
in them plays no part as long as the brackets in it pair up.
-/

namespace Exemplar

/-- A word on a new line that ends the statement or expression before it. -/
structure Word.Breaks (w : Word) : Prop where
  /-- It stands on a new line. -/
  newline : w.newlineBefore = true
  /-- It is no semicolon. -/
  not_semicolon : w.token.is ";" = false
  /-- It goes on with nothing. -/
  fresh :
    (w.kind == .punct && Brackets.continuations.any (fun s => w.text == Text.ofString s)) = false

/-- The first and the last word are the brackets of a group. -/
structure Word.Enclose (o w : Word) : Prop where
  /-- The first opens it. -/
  isOpener : o.token.isOpener = true
  /-- The last closes it. -/
  isCloser : w.token.isCloser = true
  /-- The two match. -/
  closer : w.token.text = o.token.closer

/-- Tokens with such words are such brackets. -/
theorem Word.Enclose.tokens {o w : Word} (h : o.Enclose w) {t p : Token}
    (ht : t.word = o) (hp : p.word = w) :
    t.isOpener = true ∧ p.isCloser = true ∧ p.text = t.closer := by
  refine ⟨(Blind.eq (fun _ => rfl) ht).trans h.isOpener,
    (Blind.eq (fun _ => rfl) hp).trans h.isCloser, ?_⟩
  have hx : t.text = o.text := congrArg Word.text ht
  have hy : p.text = w.text := congrArg Word.text hp
  rw [hy, Token.closer, hx]
  exact h.closer

namespace Parser

open Exemplar.Brackets

variable {c : Cursor} {o w : Word} {ws F : List Word}

/-- A token is consumed if another comes behind it, or nothing is left open at the end. -/
theorem advance_run_of {t : Token} {more : List Token} (hr : c.rest = t :: more)
    (hf : more = [] → c.ending.fault = none) : advance c = .ok (t, c.past t more) := by
  cases more with
  | nil => exact advance_run_cons hr (hf rfl)
  | cons u more => exact (advance_of_cons hr).trans (if_neg Bool.false_ne_true)

/-- Consuming tokens one by one leaves the last of them behind. -/
theorem advanceBy_run {s : List Token} {t : Token} {more : List Token}
    (hr : c.rest = s ++ t :: more) (hf : more = [] → c.ending.fault = none) :
    advanceBy (s.length + 1) c = .ok ((), c.past t more) := by
  induction s generalizing c with
  | nil =>
    show (advance >>= fun _ => advanceBy 0) c = _
    rw [bind_of_ok (advance_run_of hr hf)]; rfl
  | cons u s ih =>
    show (advance >>= fun _ => advanceBy (s.length + 1)) c = _
    rw [bind_of_ok (advance_run_of hr fun hnil => absurd hnil (by simp))]
    exact ih (c := c.past u (s ++ t :: more)) rfl hf

/-- **A group around a nested sequence is skipped as a whole.** -/
theorem skipGroup_run {o p : Token} {inner more : List Token}
    (hr : c.rest = o :: (inner ++ p :: more))
    (hf : more = [] → c.ending.fault = none) (ho : o.isOpener = true) (hp : p.isCloser = true)
    (ht : p.text = o.closer) (hi : Brackets.Nested inner) :
    skipGroup c = .ok ((), c.past p more) := by
  unfold skipGroup
  rw [get_bind, hr, scanGroup?_group ho hp ht hi]
  exact advanceBy_run (s := o :: inner) hr hf

/-- A cursor that faces a group. -/
theorem faces_group {more : List Token} (hc : c.Faces (o :: (ws ++ [w])) F more)
    (hn : Brackets.Nested (ws.map Word.token)) :
    ∃ t inner p, c.rest = t :: (inner ++ p :: more) ∧
      t.word = o ∧ p.word = w ∧ Brackets.Nested inner := by
  obtain ⟨toks, hr, hw⟩ := hc.split
  obtain ⟨t, toks, rfl, ht, hw⟩ := List.map_eq_cons_iff.1 hw
  obtain ⟨inner, toks, rfl, hinner, hw⟩ := List.map_eq_append_iff.1 hw
  obtain ⟨p, toks, rfl, hp, hw⟩ := List.map_eq_cons_iff.1 hw
  obtain rfl := List.map_eq_nil_iff.1 hw
  refine ⟨t, inner, p, by rw [hr]; simp, ht, hp, hn.of_words ?_⟩
  rw [hinner, List.map_map, Function.comp_def]
  simp

/-- So a group is read from its words, if those between the brackets are nested. -/
theorem reads_skipGroup (h : o.Enclose w) (hn : Brackets.Nested (ws.map Word.token)) :
    Reads skipGroup (o :: (ws ++ [w])) F (fun _ => True) := by
  intro c more hc
  obtain ⟨t, inner, p, hr, ht, hp, hi⟩ := faces_group hc hn
  obtain ⟨ho, hclose, hx⟩ := h.tokens ht hp
  exact ⟨(), c.past p more,
    skipGroup_run hr (fun _ => hc.clean.fault) ho hclose hx hi, rfl, rfl, trivial⟩

/-- Behind a group an expression ends at a break. -/
theorem atBreak_run {p : Token} {more : List Token} (hp : p.isCloser = true)
    (hw : (c.past p more).current.word = w) (hb : w.Breaks) :
    atBreak (c.past p more) = .ok (true, c.past p more) := by
  have hnext : continuesAcross (some p) (c.past p more).current = false := by
    rw [continuesAcross, Option.any_some, hp, Bool.not_true, Bool.and_false, Bool.false_or]
    refine Eq.trans ?_ hb.fresh
    rw [← hw]; rfl
  have hline : (c.past p more).current.newlineBefore = true := by
    rw [← hb.newline, ← hw]; rfl
  show Except.ok ((c.past p more).current.newlineBefore &&
    !continuesAcross (c.past p more).last (c.past p more).current, c.past p more) = _
  rw [hline, Cursor.past_last, hnext]; rfl

/-- An opening bracket is neither a comma nor a semicolon, nor the end of the source. -/
theorem not_stop_of_isOpener {t : Token} (h : t.isOpener = true) :
    t.isEof = false ∧ (t.is "," || t.is ";" || t.isCloser) = false := by
  have key : ∀ s ∈ ["(", "[", "\x7b"], ∀ r ∈ [",", ";", ")", "]", "\x7d"],
      (Text.ofString s == Text.ofString r) = false := by decide
  rw [Token.isOpener, Bool.and_eq_true, beq_iff_eq] at h
  obtain ⟨hk, hx⟩ := h
  have hx' : ∃ s ∈ ["(", "[", "\x7b"], t.text = Text.ofString s := by
    simpa [or_assoc] using hx
  obtain ⟨s, hs, hx'⟩ := hx'
  have hkey := key s hs
  simp only [List.forall_mem_cons] at hkey
  simp [Token.isEof, Token.is, Token.isCloser, hk, hx', hkey]

/-- **An expression that is a group ends at the line break behind it.** -/
theorem reads_skipExpression_group (h : o.Enclose w) (hn : Brackets.Nested (ws.map Word.token))
    (hF : ∀ v ∈ F, v.Breaks) : Reads skipExpression (o :: (ws ++ [w])) F (fun _ => True) := by
  intro c more hc
  obtain ⟨t, inner, p, hr, ht, hp, hi⟩ := faces_group hc hn
  obtain ⟨ho, hclose, hx⟩ := h.tokens ht hp
  obtain ⟨heof, hstop⟩ := not_stop_of_isOpener ho
  have hgroup := skipGroup_run hr (fun _ => hc.clean.fault) ho hclose hx hi
  have hbreak :=
    atBreak_run hclose rfl (hF _ (show (c.past p more).current.word ∈ F from hc.next))
  -- The first round skips the group.
  have hfirst : expressionRound true c = .ok (some false, c.past p more) := by
    unfold expressionRound
    rw [current_bind, Cursor.current_of_cons hr, heof, hstop, ho]
    show (skipGroup >>= fun _ => pure (some false)) c = _
    rw [bind_of_ok hgroup]; rfl
  -- The second one finds the break and ends the expression.
  have hlast : expressionRound false (c.past p more) = .ok (none, c.past p more) := by
    unfold expressionRound
    rw [current_bind, ite_run]
    split
    · rfl
    · show (atBreak >>= fun b => if b = true then _ else _) (c.past p more) = _
      rw [bind_of_ok hbreak]; rfl
  refine ⟨(), c.past p more, ?_, rfl, rfl, trivial⟩
  have hloop : iterate expressionRound true c = .ok (false, c.past p more) := by
    show iterateUpTo expressionRound (c.rest.length + 1) true c = _
    rw [hr, List.length_cons, iterateUpTo_of_some hfirst, iterateUpTo_of_none hlast]
  rw [skipExpression, bind_of_ok hloop]; rfl

/-- A semicolon may be left out before a break. -/
theorem sees_semicolon (hF : ∀ v ∈ F, v.Breaks) : Sees semicolon [] F () := by
  unfold semicolon
  refine Sees.bind (Sees.got fun v hv => (hF v hv).not_semicolon)
    (Sees.ite_neg Bool.false_ne_true ?_)
  refine Sees.bind (a := true) (Sees.current_bind fun t ht => ?_) (Sees.ite_pos rfl Sees.pure)
  have hline : t.newlineBefore = true := (hF _ ht).newline
  rw [hline, Bool.or_true]
  exact Sees.pure

end Parser

end Exemplar
