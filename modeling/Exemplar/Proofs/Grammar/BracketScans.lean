import Exemplar.Grammar.Brackets

/-!
# Scans over more tokens

The grammar looks for the end of a group with three scans: `matching` counts brackets of any
kind, `matchingAngle` counts angle brackets between them, and `scan` keeps the closing brackets
it waits for. All three work from left to right, and none looks behind the place where it stops.
So what a scan finds among some tokens it also finds where other tokens come behind them; only a
scan that runs out of tokens can be changed by those.

Each scan is taken apart once, by what it does with the first token: it stops there, or it goes
on behind it with other counts. The facts about longer lists are inductions over that.
-/

namespace Exemplar.Brackets

variable {l b : List Token}

/-! ## One token of a scan -/

/-- The count of brackets stops at a token, or goes on behind it with another depth. -/
theorem matching_step (depth : Nat) (t : Token) :
    (∀ rest, matching depth (t :: rest) = some 0) ∨
      ∃ d, ∀ rest, matching depth (t :: rest) = (matching d rest).map (· + 1) := by
  by_cases ho : t.isOpener = true
  · exact .inr ⟨depth + 1, fun rest => if_pos ho⟩
  by_cases hc : t.isCloser = true
  · by_cases hd : depth ≤ 1
    · exact .inl fun rest => by rw [matching, if_neg ho, if_pos hc, if_pos hd]
    · exact .inr ⟨depth - 1, fun rest => by rw [matching, if_neg ho, if_pos hc, if_neg hd]⟩
  · exact .inr ⟨depth, fun rest => by rw [matching, if_neg ho, if_neg hc]⟩

/-- **The first token of a count of angle brackets.** The count is blocked there, or it has found
the end, which is no bracket of another sort, or it goes on behind the token with other counts.
In the last case the brackets of other sorts are counted like anywhere else. -/
theorem matchingAngle_cons (angles groups : Nat) (t : Token) :
    (∀ rest, matchingAngle angles groups (t :: rest) = .blocked) ∨
      (∀ rest, matchingAngle angles groups (t :: rest) = .found 0) ∧
        t.isOpener = false ∧ t.isCloser = false ∨
      ∃ a g, (∀ rest, matchingAngle angles groups (t :: rest) = (matchingAngle a g rest).next) ∧
        if t.isOpener then g = groups + 1 else if t.isCloser then groups = g + 1
        else g = groups := by
  by_cases hs : t.is ";" = true
  · exact .inl fun rest => by rw [matchingAngle.eq_def]; exact if_pos hs
  by_cases ho : t.isOpener = true
  · refine .inr (.inr ⟨angles, groups + 1, fun rest => ?_, by rw [if_pos ho]⟩)
    rw [matchingAngle.eq_def]
    simp only [hs, ho, if_true, if_false, Bool.false_eq_true]
  by_cases hc : t.isCloser = true
  · cases groups with
    | zero =>
      -- It closes a group that was opened before the count began.
      refine .inl fun rest => ?_
      rw [matchingAngle.eq_def]
      simp only [hs, ho, hc, if_true, if_false, Bool.false_eq_true]
    | succ g =>
      refine .inr (.inr ⟨angles, g, fun rest => ?_, by rw [if_neg ho, if_pos hc]⟩)
      rw [matchingAngle.eq_def]
      simp only [hs, ho, hc, if_true, if_false, Bool.false_eq_true]
  -- The other tokens leave the groups alone.
  have hgroups : if t.isOpener then groups = groups + 1
      else if t.isCloser then groups = groups + 1
      else groups = groups := by rw [if_neg ho, if_neg hc]
  by_cases hl : t.is "<" = true
  · refine .inr (.inr ⟨angles + 1, groups, fun rest => ?_, hgroups⟩)
    rw [matchingAngle.eq_def]
    simp only [hs, ho, hc, hl, if_true, if_false, Bool.false_eq_true]
  by_cases hg : t.is ">" = true
  · by_cases ha : angles ≤ 1
    · refine .inr (.inl ⟨fun rest => ?_, Bool.eq_false_iff.2 ho, Bool.eq_false_iff.2 hc⟩)
      rw [matchingAngle.eq_def]
      simp only [hs, ho, hc, hl, hg, ha, if_true, if_false, Bool.false_eq_true]
    · refine .inr (.inr ⟨angles - 1, groups, fun rest => ?_, hgroups⟩)
      rw [matchingAngle.eq_def]
      simp only [hs, ho, hc, hl, hg, ha, if_true, if_false, Bool.false_eq_true]
  · refine .inr (.inr ⟨angles, groups, fun rest => ?_, hgroups⟩)
    rw [matchingAngle.eq_def]
    simp only [hs, ho, hc, hl, hg, if_false, Bool.false_eq_true]

/-- So it stops there with an answer, or goes on. That it stops without an answer, because the
tokens end, is not a matter of any token. -/
theorem matchingAngle_step (angles groups : Nat) (t : Token) :
    (∃ x, x ≠ .ranOut ∧ ∀ rest, matchingAngle angles groups (t :: rest) = x) ∨
      ∃ a g, ∀ rest, matchingAngle angles groups (t :: rest)
      = (matchingAngle a g rest).next := by
  obtain hblocked | ⟨hfound, -⟩ | ⟨a, g, hnext, -⟩ := matchingAngle_cons angles groups t
  · exact .inl ⟨.blocked, nofun, hblocked⟩
  · exact .inl ⟨.found 0, nofun, hfound⟩
  · exact .inr ⟨a, g, hnext⟩

/-- The scan of a group stops at a token, behind its closing bracket or before one of another
kind, or it goes on behind the token and waits for other brackets. -/
theorem scan_step (top : Text) (outer : List Text) (t : Token) :
    (∃ x, (x = .closed 1 ∨ x = .mismatch 0) ∧ ∀ rest, scan top outer (t :: rest) = x) ∨
      ∃ top' outer', ∀ rest, scan top outer (t :: rest) = (scan top' outer' rest).next := by
  by_cases ho : t.isOpener = true
  · refine .inr ⟨t.closer, top :: outer, fun rest => ?_⟩
    rw [scan.eq_def]
    simp only [ho, if_true]
  by_cases hc : t.isCloser = true
  · by_cases ht : (t.text == top) = true
    · cases outer with
      | nil =>
        refine .inl ⟨.closed 1, .inl rfl, fun rest => ?_⟩
        rw [scan.eq_def]
        simp only [ho, hc, ht, if_true, if_false, Bool.false_eq_true]
      | cons top' outer' =>
        refine .inr ⟨top', outer', fun rest => ?_⟩
        rw [scan.eq_def]
        simp only [ho, hc, ht, if_true, if_false, Bool.false_eq_true]
    · refine .inl ⟨.mismatch 0, .inr rfl, fun rest => ?_⟩
      rw [scan.eq_def]
      simp only [ho, hc, ht, if_true, if_false, Bool.false_eq_true]
  · refine .inr ⟨top, outer, fun rest => ?_⟩
    rw [scan.eq_def]
    simp only [ho, hc, if_false, Bool.false_eq_true]

/-! ## Tokens behind -/

/-- The place of an angle bracket that was found. -/
def AngleScan.found? : AngleScan → Option Nat
  | .found i => some i
  | .blocked | .ranOut => none

/-- A place is only answered if a bracket was found. -/
theorem AngleScan.found?_eq_some {x : AngleScan} {i : Nat} (h : x.found? = some i) :
    x = .found i := by
  cases x <;> cases h
  rfl

/-- A scan that is closed one token later was closed before. -/
theorem Scan.next_eq_closed {x : Scan} {n : Nat} (h : x.next = .closed n) :
    ∃ m, x = .closed m ∧ n = m + 1 := by
  cases x <;> cases h
  exact ⟨_, rfl, rfl⟩

/-- A bracket that is found is found whatever comes behind the tokens it was looked for in. By
induction on the tokens: either the count has stopped, or it goes on with one token less. -/
theorem matching_append_of_some {depth i : Nat} (h : matching depth l = some i) :
    matching depth (l ++ b) = some i := by
  induction l generalizing depth i with
  | nil => cases h
  | cons t l ih =>
    obtain hstop | ⟨d, hgo⟩ := matching_step depth t
    · rw [List.cons_append, hstop, ← h, hstop]
    · rw [hgo] at h
      obtain ⟨j, hj, rfl⟩ := Option.map_eq_some_iff.1 h
      rw [List.cons_append, hgo, ih hj]
      rfl

/-- What is known of an angle bracket is known whatever comes behind: where it is, and also that
a semicolon or a closing bracket comes before it. Only where the tokens run out is nothing
known. -/
theorem matchingAngle_append {angles groups : Nat}
    (h : matchingAngle angles groups l ≠ .ranOut) :
    matchingAngle angles groups (l ++ b) = matchingAngle angles groups l := by
  induction l generalizing angles groups with
  | nil => exact absurd rfl h
  | cons t l ih =>
    obtain ⟨x, -, hstop⟩ | ⟨a, g, hgo⟩ := matchingAngle_step angles groups t
    · rw [List.cons_append, hstop, hstop]
    · rw [hgo] at h
      rw [List.cons_append, hgo, hgo, ih fun hr => h (by rw [hr]; rfl)]

/-- Groups that are closed are closed whatever comes behind them, and they are among the tokens
that were scanned. -/
theorem scan_append_of_closed {top : Text} {outer : List Text} {n : Nat}
    (h : scan top outer l = .closed n) :
    scan top outer (l ++ b) = .closed n ∧ n ≤ l.length := by
  induction l generalizing top outer n with
  | nil => cases h
  | cons t l ih =>
    rw [List.cons_append, List.length_cons]
    obtain ⟨x, rfl | rfl, hstop⟩ | ⟨top', outer', hgo⟩ := scan_step top outer t
    · rw [hstop] at h
      cases h
      exact ⟨hstop _, Nat.succ_pos _⟩
    · rw [hstop] at h
      cases h
    · rw [hgo] at h
      obtain ⟨m, hm, rfl⟩ := Scan.next_eq_closed h
      obtain ⟨hscan, hle⟩ := ih hm
      rw [hgo, hscan]
      exact ⟨rfl, Nat.succ_le_succ hle⟩

/-- The same for the group that the first token opens, or for that token alone. -/
theorem scanGroup?_append_of_closed {n : Nat} (h : scanGroup? l = some (.closed n)) :
    scanGroup? (l ++ b) = some (.closed n) ∧ n ≤ l.length := by
  cases l with
  | nil => cases h
  | cons t l =>
    replace h := Option.some.inj h
    show some (if t.isOpener = true then (scan t.closer [] (l ++ b)).next
      else if t.isCloser = true then .mismatch 0 else .closed 1) = _ ∧ _
    rw [List.length_cons]
    split at h
    · rename_i ho
      obtain ⟨m, hm, rfl⟩ := Scan.next_eq_closed h
      obtain ⟨hscan, hle⟩ := scan_append_of_closed (b := b) hm
      rw [if_pos ho, hscan]
      exact ⟨rfl, Nat.succ_le_succ hle⟩
    · rename_i ho
      rw [if_neg ho]
      split at h
      · cases h
      · rename_i hc
        cases h
        rw [if_neg hc]
        exact ⟨rfl, Nat.succ_pos _⟩

end Exemplar.Brackets
