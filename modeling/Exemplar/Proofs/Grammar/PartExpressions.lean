import Exemplar.Proofs.Grammar.PartPlacement

/-!
# Expressions at the end of a part

An expression is skipped and not read. It ends where it can no longer go on, and where a source
can go on is a question about the token behind it: in the part there is none, and in the whole
there is what comes behind the part. So an expression that ends with its part is the one rule
whose end is decided by different tokens on the two sides.

It ends there all the same. The end of a source and a semicolon both end an expression, and the
word `export` stands on a new line behind a token that no expression goes on from
(`Token.IsFinal`). Only an expression that has not begun yet would take the word for its first
token, so an expression is followed from anywhere but the end of a part before `export`.
-/

namespace Exemplar.Parser

open Exemplar.Brackets
open Exemplar.Cursor (Placed)

variable {α : Type} {e : Placement} {c c' d : Cursor}

/-! ## Rounds behind the first -/

/-- A round that goes on says that the piece after it is not the first one. -/
class Later (p : Parser (Option Bool)) : Prop where
  eq_false : ∀ {c d : Cursor} {b : Bool}, p c = .ok (some b, d) → b = false

namespace Later

instance : Later (pure none) := ⟨fun h => by cases h⟩

instance : Later (pure (some false)) := ⟨fun h => by cases h; rfl⟩

instance (p : Parser α) (f : α → Parser (Option Bool)) [∀ a, Later (f a)] : Later (p >>= f) where
  eq_false h := by
    obtain ⟨_, _, -, h⟩ := bind_eq_ok.1 h
    exact eq_false h

instance (P : Prop) [Decidable P] (p q : Parser (Option Bool)) [Later p] [Later q] :
    Later (if P then p else q) := by
  split <;> assumption

end Later

instance (first : Bool) : Later (expressionRound first) := by
  unfold expressionRound; infer_instance

/-! ## Line breaks -/

/-- Whether an expression goes on across a line break is decided by the kinds and the texts of
the two tokens at it. -/
theorem continuesAcross_congr {last last' : Option Token} {t u : Token} (h : SameBare t u)
    (hl : last'.map (fun t => (t.kind, t.text)) = last.map (fun t => (t.kind, t.text))) :
    continuesAcross last' u = continuesAcross last t := by
  obtain ⟨s, rfl⟩ := h.exists_span
  have key : ∀ o : Option Token, o.any (fun t => t.kind == .punct && !t.isCloser)
      = (o.map (fun t => (t.kind, t.text))).any (fun x =>
        x.1 == .punct && !(Token.mk x.1 x.2 s false).isCloser) := by
    intro o
    cases o <;> rfl
  unfold continuesAcross
  rw [key last', hl, ← key last]

/-- Before `export` on a new line an expression that is over does not go on. -/
theorem continuesAcross_of_isFinal {t s : Token} (ht : t.IsFinal) (hs : s.IsExport) :
    continuesAcross (some t) s = false := by
  have hlast : (t.kind == .punct && !t.isCloser) = false := by
    rcases ht with hk | hcloser
    · simp only [List.mem_cons, List.not_mem_nil, or_false] at hk
      rcases hk with hk | hk | hk | hk <;> rw [hk] <;> rfl
    · rw [hcloser, Bool.not_true, Bool.and_false]
  obtain ⟨_, _, sp, _⟩ := s
  obtain ⟨rfl, rfl, rfl⟩ := hs
  show ((t.kind == .punct && !t.isCloser) || false) = false
  rw [hlast]
  rfl

namespace Follows

/-- A line break ends an expression on both sides or on neither, where a token is left. -/
theorem atBreak_eq {b : Bool} (hc : Placed e c c') (hr : c.rest ≠ [])
    (h : atBreak c = .ok (b, c)) : atBreak c' = .ok (b, c') :=
  have hcurrent := Cursor.Alongside.current hc hr
  Simulates.atBreak_congr hcurrent (continuesAcross_congr hcurrent hc.last) h

instance : Follows e .token atBreak atBreak where
  endsLike {c c' d b} hc h hr := by
    cases h
    exact ⟨_, c', atBreak_eq hc hr rfl, inferInstance, hc⟩

/-- At the end of a part before `export`, that word is seen. -/
theorem current_isExport (hc : Placed e c c') (hr : c.rest = []) (hx : e.Exports) :
    c'.current.IsExport := by
  obtain ⟨s, more, htail, hs⟩ := hx
  cases hc.current_of_nil hr with
  | nothing hnil _ _ => rw [hnil] at htail; cases htail
  | semicolon hcons _ => rw [hcons] at htail; cases htail; exact hs
  | exported _ hs' => exact hs'

/-- There a line break ends what stands before it. -/
theorem atBreak_of_exports (hc : Placed e c c') (hr : c.rest = []) (hx : e.Exports) :
    atBreak c' = .ok (true, c') := by
  obtain ⟨t, ht, hfinal⟩ := hc.last_isFinal hx hr
  have hlast := hc.last
  rw [ht] at hlast
  obtain ⟨t', ht', hface⟩ := Option.map_eq_some_iff.1 hlast
  obtain ⟨hkind, htext⟩ := Prod.mk.inj hface
  have hfinal' : t'.IsFinal := by
    rw [Token.IsFinal, Token.isCloser, hkind, htext]
    exact hfinal
  have hs := current_isExport hc hr hx
  show Except.ok (c'.current.newlineBefore && !continuesAcross c'.last c'.current, c') = _
  rw [ht', continuesAcross_of_isFinal hfinal' hs, hs.newline]
  rfl

/-! ## Rounds of an expression -/

instance : Inert Placement.words (·.is "(") := {}

/-- At the end of a part an expression is over, if it has begun or `export` does not come
next. -/
theorem expressionRound_of_nil {first : Bool} (hc : Placed e c c') (hr : c.rest = [])
    (hx : first = true → ¬e.Exports) : expressionRound first c' = .ok (none, c') := by
  unfold expressionRound
  rw [current_bind]
  cases hc.current_of_nil hr with
  | nothing _ hk _ =>
    have heof : c'.current.isEof = true := by rw [Token.isEof, hk]; rfl
    rw [if_pos heof]
    rfl
  | semicolon _ hs =>
    have heof : ¬c'.current.isEof = true := by rw [Token.isEof, hs.kind]; decide
    have hstop : (c'.current.is "," || c'.current.is ";" || c'.current.isCloser) = true := by
      rw [Token.is_eq hs.word_eq, Token.is_eq hs.word_eq]
      rfl
    rw [if_neg heof]
    show (if (!first && _) = true then pure none else if _ then pure none else _ :
      Parser (Option Bool)) c' = _
    rw [if_pos hstop, ite_self]
    rfl
  | exported htail hs =>
    have hexports : e.Exports := ⟨_, _, htail, hs⟩
    have heof : ¬c'.current.isEof = true := by rw [Token.isEof, hs.kind]; decide
    have hfirst : first = false := Bool.eq_false_iff.2 fun h => hx h hexports
    rw [if_neg heof, bind_of_ok (atBreak_of_exports hc hr hexports), hfirst]
    rfl

/-- A round of an expression is followed from anywhere; only the first one may not start in
front of `export`. -/
theorem expressionRound_placed {first : Bool} {o : Option Bool} (hc : Placed e c c')
    (hx : first = true → e.Exports → c.rest ≠ []) (h : expressionRound first c = .ok (o, d)) :
    EndsLike (Placed e) (expressionRound first c') o d := by
  by_cases hr : c.rest = []
  · have heof : c.current.isEof = true := by rw [hc.visited.current_isEof, hr]; rfl
    unfold expressionRound at h
    rw [current_bind, if_pos heof] at h
    obtain ⟨rfl, rfl⟩ := pure_eq_ok.1 h
    exact ⟨none, c', expressionRound_of_nil hc hr fun hf he => hx hf he hr, inferInstance, hc⟩
  · exact Simulates.expressionRound_of hc hr (atBreak_eq hc hr) hc.matchingAngle_eq h

/-- **An expression is followed** from anywhere but the end of a part before `export`. -/
instance : Follows e (.free e) skipExpression skipExpression where
  endsLike {c c' d a} hc h hx := by
    show EndsLike (Placed e) ((Parser.iterate expressionRound true >>= fun _ => pure ()) c') a d
    refine EndsLike.bind (R := Placed e) h (fun {b c₁} h _ => ?_)
      fun _ hc₁ _ h => Simulates.again .anywhere hc₁ h trivial
    refine Simulates.iterateUpTo_of (fun first c => first = true → e.Exports → c.rest ≠ []) ?_
      (Nat.succ_le_succ (Cursor.Alongside.length_le hc)) (SameBare.refl true) hc (fun _ => hx) h
    rintro s s' o c c' d ⟨hs⟩ hc hx h -
    obtain rfl : s = s' := hs
    obtain ⟨o', d', h', ho, hd⟩ := expressionRound_placed hc hx h
    refine ⟨o', d', h', ho, fun _ => hd, fun s₁ hs₁ => ⟨hd, fun htrue => ?_⟩⟩
    -- a round that goes on leaves a piece behind it that is not the first
    subst hs₁
    rw [Later.eq_false h] at htrue
    cases htrue

end Follows

end Exemplar.Parser
