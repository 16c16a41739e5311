import Exemplar.Proofs.Grammar.BalancedTokens
import Exemplar.Proofs.Grammar.Breakdown
import Exemplar.Proofs.Grammar.Sources

/-!
# What is skipped with an expression

An expression is skipped piece by piece. A piece is a token that is no bracket, a group around a
nested sequence, or a list of type arguments in front of a call (`Piece`). Tokens and groups are
nested. A list of type arguments is found by a scan of its own, which counts the brackets
between `<` and `>` but takes a `>` for the end while some of them are open. So the whole is
nested exactly if each of these lists is: a bracket that is left open in one of them is missed,
and no other.

There are three steps. What the scans find is described without them: a group that the scan for
its end has found is a nested sequence between two brackets, and a list of type arguments closes
no bracket that it has not opened. Then it is asked when pieces side by side are nested; for
this the number of open brackets along them is counted (`Brackets.level`). And at last the
rounds of the rule are shown to consume pieces, up to a place where an expression ends.
-/

namespace Exemplar

open Exemplar.Brackets

namespace Brackets

variable {l p q : List Token} {t : Token} {a d g i k m n : Nat} {top : Text} {outer : List Text}

/-! ## Groups

The scan for the end of a group keeps the closing brackets that are still to come, the innermost
first. -/

/-- **A scan for the end of a group goes over a nested sequence** and comes to the bracket that
closes the group. If other groups are open around it, the scan goes on behind the bracket for
the group next to it, which is what the second alternative says. The induction is on the length:
behind an opening bracket it is used twice, for the group that opens there and for what follows
this group. -/
theorem exists_nested_of_scan (h : scan top outer l = .closed n) :
    ∃ inner c rest, l = inner ++ c :: rest ∧ Nested inner ∧ c.isCloser = true ∧ c.text = top ∧
      (outer = [] ∧ n = inner.length + 1 ∨ ∃ top' outer' m, outer = top' :: outer' ∧
        scan top' outer' rest = .closed m ∧ n = inner.length + 1 + m) := by
  induction hl : l.length using Nat.strongRecOn generalizing top outer l n with
  | _ k ih =>
    subst hl
    cases l with
    | nil => cases h
    | cons t l =>
      by_cases ho : t.isOpener = true
      · -- the group inside comes to its end, and behind it the group around does
        have hscan : (scan t.closer (top :: outer) l).next = .closed n := by
          cases outer <;> simpa only [scan, ho, if_true] using h
        obtain ⟨m, hm, rfl⟩ := Scan.next_eq_closed hscan
        obtain ⟨inner, c, rest, rfl, hi, hc, ht, ⟨hnil, -⟩ | ⟨_, _, m₂, hcons, hrest, rfl⟩⟩ :=
          ih l.length (Nat.lt_succ_self _) hm rfl
        · cases hnil
        cases hcons
        obtain ⟨inner₂, c₂, rest₂, rfl, hi₂, hc₂, ht₂, hend⟩ := ih rest.length
          (by simp only [List.length_cons, List.length_append]; omega) hrest rfl
        -- The group that opens here and what follows it make one nested sequence.
        refine ⟨t :: (inner ++ c :: inner₂), c₂, rest₂, by simp,
          .group ho hc ht hi hi₂, hc₂, ht₂, ?_⟩
        simp only [List.length_cons, List.length_append]
        refine hend.imp (And.imp_right fun h => by omega) ?_
        rintro ⟨top', outer', m₃, rfl, hscan', rfl⟩
        exact ⟨top', outer', m₃, rfl, hscan', by omega⟩
      have ho := Bool.not_eq_true _ ▸ ho
      by_cases hc : t.isCloser = true
      · -- A closing bracket ends the group if it is the one that is looked for.
        by_cases ht : t.text = top
        · refine ⟨[], t, l, rfl, .nil, hc, ht, ?_⟩
          cases outer with
          | nil =>
            simp only [scan, ho, hc, ht, beq_self_eq_true, if_true, Bool.false_eq_true, if_false]
              at h
            exact .inl ⟨rfl, (Scan.closed.inj h).symm⟩
          | cons top' outer' =>
            simp only [scan, ho, hc, ht, beq_self_eq_true, if_true, Bool.false_eq_true, if_false]
              at h
            obtain ⟨m, hm, rfl⟩ := Scan.next_eq_closed h
            exact .inr ⟨top', outer', m, rfl, hm, by rw [List.length_nil]; omega⟩
        · cases outer <;>
          · simp only [scan, ho, hc, beq_false_of_ne ht, if_true, Bool.false_eq_true, if_false]
              at h
            cases h
      -- A token that is no bracket belongs to the sequence.
      have hc := Bool.not_eq_true _ ▸ hc
      have hscan : (scan top outer l).next = .closed n := by
        cases outer <;> simpa only [scan, ho, hc, Bool.false_eq_true, if_false] using h
      obtain ⟨m, hm, rfl⟩ := Scan.next_eq_closed hscan
      obtain ⟨inner, c, rest, rfl, hi, hc', ht, hend⟩ := ih l.length (Nat.lt_succ_self _) hm rfl
      refine ⟨t :: inner, c, rest, rfl, .plain ho hc hi, hc', ht, ?_⟩
      rw [List.length_cons]
      refine hend.imp (And.imp_right fun h => by omega) ?_
      rintro ⟨top', outer', m₃, rfl, hscan', rfl⟩
      exact ⟨top', outer', m₃, rfl, hscan', by omega⟩

/-! ## Lists of type arguments

The scan for a closing angle bracket keeps two numbers, of open angle brackets and of other open
brackets. -/

/-- **One step of the scan for a closing angle bracket.** It counts the other brackets like any
count of them. It is blocked, or it has found the end, or it goes on with other numbers. -/
theorem matchingAngle_level (a g : Nat) (t : Token) :
    (∀ l, matchingAngle a g (t :: l) = .blocked) ∨
      level g [t] = some g ∧ (∀ l, matchingAngle a g (t :: l) = .found 0) ∨
      ∃ a' g', level g [t] = some g' ∧
      ∀ l, matchingAngle a g (t :: l) = (matchingAngle a' g' l).next := by
  obtain hblocked | ⟨hfound, ho, hc⟩ | ⟨a', g', hnext, hgroups⟩ := matchingAngle_cons a g t
  · exact .inl hblocked
  · exact .inr (.inl ⟨by simp [level, ho, hc], hfound⟩)
  · refine .inr (.inr ⟨a', g', ?_, hnext⟩)
    split at hgroups
    · simp [level, *]
    split at hgroups <;> simp [level, *]

/-- **A closing angle bracket is found by the tokens up to it**, and no bracket closes up to it
that has not been opened. -/
theorem matchingAngle_take (h : matchingAngle a g l = .found i) :
    matchingAngle a g (l.take (i + 1)) = .found i ∧ ∃ k, level g (l.take (i + 1)) = some k := by
  induction l generalizing a g i with
  | nil => cases h
  | cons t l ih =>
    rw [List.take_succ_cons]
    obtain hblocked | ⟨hlevel, hfound⟩ | ⟨a', g', hlevel, hnext⟩ := matchingAngle_level a g t
    · rw [hblocked] at h
      cases h
    · rw [hfound] at h
      obtain rfl := AngleScan.found.inj h
      exact ⟨hfound _, g, hlevel⟩
    · rw [hnext] at h
      cases hm : matchingAngle a' g' l with
      | found j =>
        rw [hm] at h
        obtain rfl := AngleScan.found.inj h
        obtain ⟨hj, k, hk⟩ := ih hm
        refine ⟨by rw [hnext, hj]; rfl, k, ?_⟩
        rw [← List.singleton_append, level_append, hlevel, Option.bind_some, hk]
      | blocked => rw [hm] at h; cases h
      | ranOut => rw [hm] at h; cases h

/-! ## Pieces

A piece by itself is nested or not, and never closes more than it opens. Neither does a row of
pieces. -/

/-- A list of type arguments, from its `<` to the `>` that the scan takes for its end. -/
def IsArguments (p : List Token) : Prop :=
  p.head?.any (·.is "<") = true ∧ matchingAngle 0 0 p = .found (p.length - 1)

/-- A piece of an expression. -/
inductive Piece : List Token → Prop
  /-- A token that is no bracket. -/
  | token {t : Token} (ho : t.isOpener = false) (hc : t.isCloser = false) : Piece [t]
  /-- A group around a nested sequence. -/
  | group {o c : Token} {inner : List Token} (ho : o.isOpener = true) (hc : c.isCloser = true)
      (ht : c.text = o.closer) (hi : Nested inner) : Piece (o :: (inner ++ [c]))
  /-- A list of type arguments. -/
  | arguments {p : List Token} (h : IsArguments p) : Piece p

/-- A piece is nested, or it is a list of type arguments. -/
theorem Piece.nested_or (h : Piece p) : Nested p ∨ IsArguments p := by
  cases h with
  | token ho hc => exact .inl (.plain ho hc .nil)
  | group ho hc ht hi => exact .inl (.group ho hc ht hi .nil)
  | arguments h => exact .inr h

/-- No bracket closes in a piece that has not been opened there. -/
theorem Piece.exists_level (h : Piece p) : ∃ k, level 0 p = some k := by
  obtain hn | ⟨-, hfound⟩ := h.nested_or
  · exact ⟨0, hn.level_eq 0⟩
  · obtain ⟨-, k, hk⟩ := matchingAngle_take hfound
    rw [List.take_of_length_le (by omega)] at hk
    exact ⟨k, hk⟩

/-- **Nested sequences can be cut where no bracket is open.** The brackets in front of the cut
then match among themselves, and so do those behind it. -/
theorem nested_append_iff (hp : level 0 p = some 0) : Nested (p ++ q) ↔ Nested p ∧ Nested q := by
  refine ⟨fun h => ?_, fun h => h.1.append h.2⟩
  -- along the nested sequence, which is used up by `p` from the left
  generalize hl : p ++ q = l at h
  induction h generalizing p with
  | nil =>
    obtain ⟨rfl, rfl⟩ := List.append_eq_nil_iff.1 hl
    exact ⟨.nil, .nil⟩
  | @plain t rest ho hc h ih =>
    cases p with
    | nil => exact ⟨.nil, by rw [show q = t :: rest from hl]; exact .plain ho hc h⟩
    | cons u p =>
      obtain ⟨rfl, hrest⟩ := List.cons.inj hl
      rw [level, ho, hc, if_neg Bool.false_ne_true, if_neg Bool.false_ne_true] at hp
      exact (ih hp hrest).imp_left (.plain ho hc)
  | @group o c inner rest ho hc ht hi h _ ih =>
    cases p with
    | nil => exact ⟨.nil, by rw [show q = _ from hl]; exact .group ho hc ht hi h⟩
    | cons u p =>
      obtain ⟨rfl, hrest⟩ := List.cons.inj hl
      rw [level, if_pos ho] at hp
      obtain ⟨r, rfl, -⟩ | ⟨r, rfl, hr⟩ := List.append_eq_append_iff.1 hrest
      · -- `p` would end inside the group, where its bracket is open
        have hinner := hi.level_eq 0
        rw [level_append] at hinner
        obtain ⟨k, hk, -⟩ := Option.bind_eq_some_iff.1 hinner
        rw [Nat.zero_add, ← Nat.zero_add 1, level_add hk 1] at hp
        cases hp
      cases r with
      | nil =>
        rw [List.append_nil, ← Nat.zero_add 1, hi.level_eq] at hp
        cases hp
      | cons v r =>
        obtain ⟨rfl, hback⟩ := List.cons.inj hr
        rw [level_append, hi.level_eq, Option.bind_some, level, isOpener_of_isCloser hc,
          if_neg Bool.false_ne_true, if_pos hc, if_neg (Nat.succ_ne_zero 0)] at hp
        exact (ih hp hback.symm).imp_left (.group ho hc ht hi)

/-- Brackets that are open further out stay open. -/
theorem le_of_level (h : level 0 p = some k) (d : Nat) : ∃ m, level d p = some m ∧ d ≤ m := by
  have := level_add h d
  rw [Nat.zero_add] at this
  exact ⟨k + d, this, Nat.le_add_left d k⟩

/-- Pieces side by side close nothing that has not been opened in them. -/
theorem exists_level_flatten {pieces : List (List Token)} (h : ∀ p ∈ pieces, Piece p) :
    ∃ k, level 0 pieces.flatten = some k := by
  induction pieces with
  | nil => exact ⟨0, rfl⟩
  | cons p pieces ih =>
    obtain ⟨hp, hpieces⟩ := List.forall_mem_cons.1 h
    obtain ⟨k, hk⟩ := hp.exists_level
    obtain ⟨m, hm⟩ := ih hpieces
    obtain ⟨j, hj, -⟩ := le_of_level hm k
    exact ⟨j, by rw [List.flatten_cons, level_append, hk, Option.bind_some, hj]⟩

/-- **Pieces side by side are nested exactly if each list of type arguments among them is.** If
a bracket is open behind the first piece, it stays open, for the pieces behind it close nothing
that they have not opened. So if all are nested together, no bracket is open behind the first,
and there the sequence can be cut. -/
theorem nested_flatten_iff {pieces : List (List Token)} (h : ∀ p ∈ pieces, Piece p) :
    Nested pieces.flatten ↔ ∀ p ∈ pieces, IsArguments p → Nested p := by
  induction pieces with
  | nil => exact ⟨fun _ _ hp => absurd hp List.not_mem_nil, fun _ => .nil⟩
  | cons p pieces ih =>
    obtain ⟨hp, hpieces⟩ := List.forall_mem_cons.1 h
    have hnested : (IsArguments p → Nested p) ↔ Nested p :=
      ⟨fun h => hp.nested_or.elim id h, fun h _ => h⟩
    rw [List.flatten_cons, List.forall_mem_cons, ← ih hpieces, hnested]
    refine ⟨fun hn => ?_, fun ⟨hn, hn'⟩ => hn.append hn'⟩
    -- a bracket that is open behind the first piece would be open behind them all
    obtain ⟨k, hk⟩ := hp.exists_level
    obtain ⟨m, hm⟩ := exists_level_flatten hpieces
    obtain ⟨j, hj, hle⟩ := le_of_level hm k
    have hzero := hn.level_eq 0
    rw [level_append, hk, Option.bind_some, hj] at hzero
    obtain rfl := Option.some.inj hzero
    exact (nested_append_iff (hk.trans (congrArg some (Nat.le_zero.1 hle)))).1 hn

end Brackets

/-! ## Skipping

What each step of the rule consumes, in terms of the tokens that are left before it and behind
it. -/

/-- An expression ends here: at the end of the source, a comma, a semicolon, a closing bracket,
or the beginning of a line. -/
def Cursor.EndsExpression (c : Cursor) : Prop :=
  (c.current.endsExpression || c.current.newlineBefore) = true

namespace Parser

variable {c d : Cursor} {n i : Nat} {u : Unit} {first b : Bool}

/-- Consuming tokens leaves what comes behind them. -/
theorem rest_of_advanceBy (h : advanceBy n c = .ok (u, d)) : d.rest = c.rest.drop n := by
  induction n generalizing c with
  | zero =>
    obtain ⟨-, rfl⟩ := pure_eq_ok.1 h
    rfl
  | succ n ih =>
    obtain ⟨t, c₁, h₁, h₂⟩ := bind_eq_ok.1 h
    rw [ih h₂]
    obtain ⟨hnil, rfl, -⟩ | ⟨more, hr, rfl⟩ := advance_eq_ok h₁
    · rw [hnil, List.drop_nil, List.drop_nil]
    · rw [hr, List.drop_succ_cons]
      rfl

/-- **A group that is skipped is a piece.** A group that does not close, or closes with another
bracket, is a complaint. -/
theorem exists_piece_of_skipGroup (ho : c.current.isOpener = true)
    (h : skipGroup c = .ok (u, d)) :
    ∃ p, Piece p ∧ c.rest = p ++ d.rest := by
  unfold skipGroup at h
  rw [get_bind] at h
  cases hr : c.rest with
  | nil => rw [hr] at h; cases h
  | cons t l =>
    rw [Cursor.current_of_cons hr] at ho
    have hscan : scanGroup? c.rest = some (scan t.closer [] l).next := by
      rw [hr, scanGroup?, if_pos ho]
    rw [hscan] at h
    cases hs : scan t.closer [] l with
    | closed m =>
      rw [hs] at h
      -- No other group is open around this one, so it ends behind the bracket.
      obtain ⟨inner, e, rest, rfl, hi, hc, ht, ⟨-, rfl⟩ | ⟨_, _, _, hcons, -⟩⟩ :=
        exists_nested_of_scan hs
      · have hrest : d.rest = c.rest.drop (inner.length + 2) := rest_of_advanceBy h
        refine ⟨_, .group ho hc ht hi, ?_⟩
        have hcut : t :: (inner ++ e :: rest) = (t :: (inner ++ [e])) ++ rest := by simp
        rw [hrest, hr, hcut, List.drop_left' (by simp)]
      · cases hcons
    -- The other two outcomes are complaints.
    | mismatch m =>
      rw [hs] at h
      obtain ⟨_, _, -, h₂⟩ := bind_eq_ok.1 h
      cases h₂
    | unclosed w =>
      rw [hs] at h
      obtain ⟨_, _, -, h₂⟩ := bind_eq_ok.1 h
      obtain ⟨_, _, -, h₃⟩ := bind_eq_ok.1 h₂
      cases h₃

/-- One token that is no bracket is a piece, and at the end of the source nothing is consumed. -/
theorem exists_pieces_of_advance (h : advanceBy 1 c = .ok (u, d))
    (hc : ∀ t ∈ c.rest.head?, t.isOpener = false ∧ t.isCloser = false) :
    ∃ ps : List (List Token), (∀ p ∈ ps, Piece p) ∧ c.rest = ps.flatten ++ d.rest := by
  have hrest := rest_of_advanceBy h
  cases hr : c.rest with
  | nil => exact ⟨[], fun _ hp => absurd hp List.not_mem_nil, by rw [hrest, hr]; rfl⟩
  | cons t l =>
    obtain ⟨hopen, hclose⟩ := hc t (by rw [hr]; rfl)
    refine ⟨[[t]], List.forall_mem_singleton.2 (.token hopen hclose), ?_⟩
    rw [hrest, hr]
    rfl

/-- What is skipped at an angle bracket is a list of type arguments or a token. -/
theorem exists_pieces_of_skipTypeArguments (hl : c.current.is "<" = true)
    (hc : c.current.isOpener = false ∧ c.current.isCloser = false)
    (h : skipTypeArguments c = .ok (u, d)) :
    ∃ ps : List (List Token), (∀ p ∈ ps, Piece p) ∧ c.rest = ps.flatten ++ d.rest := by
  -- Without a list there, the angle bracket is consumed as a token.
  have hone : ∀ {c₁ : Cursor}, c₁ = c → advanceBy 1 c₁ = .ok (u, d) → _ := fun heq h =>
    exists_pieces_of_advance (heq ▸ h) fun t ht => by
      obtain ⟨l, hr⟩ := List.head?_eq_some_iff.1 ht
      rwa [Cursor.current_of_cons hr] at hc
  unfold skipTypeArguments at h
  obtain ⟨o, c₁, h₁, h₂⟩ := bind_eq_ok.1 h
  obtain rfl := Still.eq_of_ok h₁
  cases o with
  | none => exact hone rfl h₂
  | some i =>
    obtain ⟨t, c₂, h₃, h₄⟩ := bind_eq_ok.1 h₂
    obtain rfl := Still.eq_of_ok h₃
    rw [ite_run] at h₄
    split at h₄
    · -- The scan has found a closing one, and a parenthesis comes behind it.
      have hfound : matchingAngle 0 0 c₂.rest = .found i := by
        unfold closingAngle at h₁
        rw [get_bind] at h₁
        cases hm : matchingAngle 0 0 c₂.rest with
        | found j => rw [hm] at h₁; cases h₁; rfl
        | blocked => rw [hm] at h₁; cases h₁
        | ranOut =>
          rw [hm] at h₁
          obtain ⟨_, _, -, h₅⟩ := bind_eq_ok.1 h₁
          cases h₅
      have hlt := matchingAngle_lt hfound
      refine ⟨[c₂.rest.take (i + 1)], List.forall_mem_singleton.2 (.arguments ⟨?_, ?_⟩), ?_⟩
      · obtain ⟨t, l, hr⟩ :=
          List.exists_cons_of_length_pos (Nat.lt_of_le_of_lt (Nat.zero_le i) hlt)
        rw [Cursor.current_of_cons hr] at hl
        rw [hr]
        exact hl
      · rw [(matchingAngle_take hfound).1, List.length_take,
          Nat.min_eq_left hlt, Nat.succ_sub_one]
      · rw [rest_of_advanceBy h₄, List.flatten_singleton, List.take_append_drop]
    · exact hone rfl h₄

/-- **A round of an expression** finds its end, or it consumes a piece. The tests are gone
through in their order: the end of the source, a line that begins, a token that ends an
expression, a bracket, an angle bracket, and any other token. -/
theorem expressionRound_cases {o : Option Bool} (h : expressionRound first c = .ok (o, d)) :
    o = none ∧ d = c ∧ c.EndsExpression ∨
      o = some false ∧ ∃ ps : List (List Token), (∀ p ∈ ps, Piece p) ∧
      c.rest = ps.flatten ++ d.rest := by
  unfold expressionRound at h
  rw [current_bind, ite_run] at h
  unfold Cursor.EndsExpression Token.endsExpression
  split at h
  · rename_i heof
    obtain ⟨rfl, rfl⟩ := pure_eq_ok.1 h
    exact .inl ⟨rfl, rfl, by rw [heof]; rfl⟩
  obtain ⟨b, c₁, h₁, h₂⟩ := bind_eq_ok.1 h
  obtain rfl := Still.eq_of_ok h₁
  obtain rfl : (c₁.current.newlineBefore && !continuesAcross c₁.last c₁.current) = b := by
    cases h₁; rfl
  rw [ite_run, ite_run] at h₂
  split at h₂
  · rename_i hbreak
    obtain ⟨rfl, rfl⟩ := pure_eq_ok.1 h₂
    rw [Bool.and_eq_true, Bool.and_eq_true] at hbreak
    exact .inl ⟨rfl, rfl, by rw [hbreak.2.1, Bool.or_true]⟩
  split at h₂
  · rename_i hstop
    obtain ⟨rfl, rfl⟩ := pure_eq_ok.1 h₂
    exact .inl ⟨rfl, rfl, by rw [hstop, Bool.or_true, Bool.true_or]⟩
  rename_i hstop
  rw [Bool.not_eq_true, Bool.or_eq_false_iff] at hstop
  rw [ite_run] at h₂
  split at h₂
  · -- A bracket: the group that it opens is skipped.
    rename_i hopen
    obtain ⟨_, c₂, h₃, h₄⟩ := bind_eq_ok.1 h₂
    obtain ⟨rfl, rfl⟩ := pure_eq_ok.1 h₄
    obtain ⟨p, hp, hr⟩ := exists_piece_of_skipGroup hopen h₃
    exact .inr ⟨rfl, [p], List.forall_mem_singleton.2 hp, by rw [hr, List.flatten_singleton]⟩
  rename_i hopen
  -- No bracket from here on, so the token can be a piece by itself.
  have hbracket : c₁.current.isOpener = false ∧ c₁.current.isCloser = false :=
    ⟨Bool.not_eq_true _ ▸ hopen, hstop.2⟩
  rw [ite_run] at h₂
  split at h₂
  · rename_i hl
    obtain ⟨_, c₂, h₃, h₄⟩ := bind_eq_ok.1 h₂
    obtain ⟨rfl, rfl⟩ := pure_eq_ok.1 h₄
    exact .inr ⟨rfl, exists_pieces_of_skipTypeArguments hl hbracket h₃⟩
  · obtain ⟨t, c₂, h₃, h₄⟩ := bind_eq_ok.1 h₂
    obtain ⟨rfl, rfl⟩ := pure_eq_ok.1 h₄
    have hadvance : advanceBy 1 c₁ = .ok ((), c₂) := by
      show (advance >>= fun _ => advanceBy 0) c₁ = _
      rw [bind_of_ok h₃]
      rfl
    refine .inr ⟨rfl, exists_pieces_of_advance hadvance fun t ht => ?_⟩
    obtain ⟨l, hr⟩ := List.head?_eq_some_iff.1 ht
    rwa [Cursor.current_of_cons hr] at hbracket

/-- The rounds of an expression consume pieces up to its end. -/
theorem exists_pieces_of_iterateUpTo (h : iterateUpTo expressionRound n first c = .ok (b, d)) :
    d.EndsExpression ∧
      ∃ ps : List (List Token), (∀ p ∈ ps, Piece p) ∧ c.rest = ps.flatten ++ d.rest := by
  induction n generalizing c first with
  | zero => cases h
  | succ n ih =>
    obtain ⟨_, hn, ⟨rfl, h₁⟩ | ⟨b₁, c₁, h₁, h₂⟩⟩ := iterateUpTo_eq_ok h
    · obtain ⟨-, rfl, hend⟩ | ⟨hsome, -⟩ := expressionRound_cases h₁
      · exact ⟨hend, [], fun _ hp => absurd hp List.not_mem_nil, rfl⟩
      · cases hsome
    · cases hn
      obtain ⟨hend, ps, hps, hr⟩ := ih h₂
      obtain ⟨hnone, -⟩ | ⟨-, ps₁, hps₁, hr₁⟩ := expressionRound_cases h₁
      · cases hnone
      · refine ⟨hend, ps₁ ++ ps, List.forall_mem_append.2 ⟨hps₁, hps⟩, ?_⟩
        rw [hr₁, hr, List.flatten_append, List.append_assoc]

/-- **What is skipped with an expression** is nested exactly if each list of type arguments in
it is, and the expression ends where one may end. The pieces are those that the rounds have
consumed. -/
theorem skipExpression_nested_iff (h : skipExpression c = .ok ((), d)) :
    d.EndsExpression ∧ ∃ ps : List (List Token), c.rest
      = ps.flatten ++ d.rest ∧ (∀ p ∈ ps, Piece p) ∧
      (Brackets.Nested ps.flatten ↔ ∀ p ∈ ps, IsArguments p → Brackets.Nested p) := by
  unfold skipExpression at h
  obtain ⟨b, c₁, h₁, h₂⟩ := bind_eq_ok.1 h
  obtain ⟨-, rfl⟩ := pure_eq_ok.1 h₂
  obtain ⟨hend, ps, hps, hr⟩ := exists_pieces_of_iterateUpTo (n := c.rest.length + 1) h₁
  exact ⟨hend, ps, hr, hps, nested_flatten_iff hps⟩

/-- A call with type arguments is skipped up to the comma behind it. -/
theorem skipExpression_nested_iff_call :
    ∃ d, skipExpression (startOf (Text.ofString "f<[a]>(b), c")) = .ok ((), d) ∧
    d.current.is "," = true ∧ d.EndsExpression ∧
    ∃ ps : List (List Token), (startOf (Text.ofString "f<[a]>(b), c")).rest
      = ps.flatten ++ d.rest ∧
      (∀ p ∈ ps, Piece p) ∧
      (Brackets.Nested ps.flatten ↔ ∀ p ∈ ps, IsArguments p → Brackets.Nested p) := by
  obtain ⟨⟨_, d⟩, hd, hcomma⟩ := exists_ok_of_any (fun r : Unit × Cursor => r.2.current.is ",")
    (by decide +kernel : (skipExpression (startOf (Text.ofString "f<[a]>(b), c"))).toOption.any _
      = true)
  exact ⟨d, hd, hcomma, skipExpression_nested_iff hd⟩

/-- A list of type arguments is taken to end while a bracket in it is open. -/
theorem not_skipExpression_nested : ¬∀ c d : Cursor, skipExpression c = .ok ((), d) →
    d.EndsExpression ∧ ∃ skipped, c.rest = skipped ++ d.rest ∧ Brackets.Nested skipped := by
  intro hall
  obtain ⟨⟨_, d⟩, hd, hrest⟩ := exists_ok_of_any (fun r : Unit × Cursor => r.2.rest.isEmpty)
    (by decide +kernel : (skipExpression (startOf (Text.ofString "f<(>(b)"))).toOption.any _
      = true)
  obtain ⟨-, skipped, hr, hn⟩ := hall _ _ hd
  rw [List.isEmpty_iff.1 hrest, List.append_nil] at hr
  have hlevel : level 0 (startOf (Text.ofString "f<(>(b)")).rest = some 1 := by decide +kernel
  rw [hr, hn.level_eq] at hlevel
  cases hlevel

end Parser

end Exemplar
