import Mathlib.Data.List.Infix
import Exemplar.Proofs.Grammar.CommonTokens
import Exemplar.Proofs.Grammar.NestedBrackets

/-!
# Tokens that leave no bracket open

The grammar counts brackets where it looks for the end of a group without reading it, and it
does not ask which bracket closes which. `Brackets.level` is that count. Where it comes back to
zero every bracket has its partner, so a count passes over such tokens as if they were not
there, and from each opening bracket among them the closing one is found before they end.

The count says less than that the brackets pair up: parentheses may close square brackets. It is
all that a search for a closing bracket needs, though, and it is additive, which nesting is not:
the count over two texts is the one over the first and, from there, the one over the second.
-/

namespace Exemplar.Brackets

variable {l u more : List Token} {t : Token} {d k m : Nat}

/-- The number of brackets that are open behind tokens if `depth` are open before them. There is
none if a bracket closes that has not been opened. -/
def level (depth : Nat) : List Token → Option Nat
  | [] => some depth
  | t :: rest =>
    if t.isOpener then level (depth + 1) rest
    else if t.isCloser then if depth = 0 then none else level (depth - 1) rest
    else level depth rest

/-- Counting goes on behind tokens with what they leave open. -/
theorem level_append (d : Nat) (l u : List Token) :
    level d (l ++ u) = (level d l).bind (level · u) := by
  induction l generalizing d with
  | nil => rfl
  | cons t l ih =>
    rw [List.cons_append, level, level, ih, ih, ih]
    split
    · rfl
    split
    · split <;> rfl
    · rfl

/-- Brackets that are open further out do not matter. -/
theorem level_add (h : level d l = some k) (n : Nat) : level (d + n) l = some (k + n) := by
  induction l generalizing d with
  | nil => cases h; rfl
  | cons t l ih =>
    rw [level] at h ⊢
    by_cases ho : t.isOpener = true
    · rw [if_pos ho] at h ⊢
      rw [Nat.add_right_comm]
      exact ih h
    rw [if_neg ho] at h ⊢
    by_cases hc : t.isCloser = true
    · rw [if_pos hc] at h ⊢
      split at h
      · cases h
      · -- One less is open further in, and as many further out.
        rename_i hd
        rw [if_neg (by omega), Nat.sub_add_comm (Nat.pos_of_ne_zero hd)]
        exact ih h
    · rw [if_neg hc] at h ⊢
      exact ih h

/-- The count is a matter of the words. Places and line ends are not looked at. -/
theorem level_words (d : Nat) (l : List Token) :
    level d ((l.map Token.word).map Word.token) = level d l := by
  induction l generalizing d with
  | nil => rfl
  | cons t l ih =>
    rw [List.map_cons, List.map_cons, level, level, ih, ih, ih]
    rfl

/-- Brackets that pair up leave nothing open. -/
theorem Nested.level_eq (h : Nested l) (d : Nat) : level d l = some d := by
  induction h generalizing d with
  | nil => rfl
  | plain ho hc _ ih =>
    rw [level, ho, hc, if_neg Bool.false_ne_true, if_neg Bool.false_ne_true, ih]
  | group ho hc _ _ _ ihi ih =>
    rw [level, if_pos ho, level_append, ihi, Option.bind_some, level, isOpener_of_isCloser hc,
      if_neg Bool.false_ne_true, if_pos hc, if_neg (Nat.succ_ne_zero d), Nat.add_sub_cancel, ih]

/-- **The count of open brackets passes over tokens** with what is open behind them. Of the
brackets that were open before, none is closed in between, or there would be no count. -/
theorem matching_append_of_level (h : level d l = some k) (u : List Token) :
    matching (d + 1) (l ++ u) = (matching (k + 1) u).map (· + l.length) := by
  induction l generalizing d with
  | nil => cases h; simp
  | cons t l ih =>
    rw [level] at h
    rw [List.cons_append, matching]
    by_cases ho : t.isOpener = true
    · rw [if_pos ho] at h ⊢
      rw [ih h, Option.map_map]
      rfl
    rw [if_neg ho] at h ⊢
    by_cases hc : t.isCloser = true
    · rw [if_pos hc] at h ⊢
      split at h
      · cases h
      · rename_i hd
        obtain ⟨d, rfl⟩ := Nat.exists_eq_succ_of_ne_zero hd
        rw [Nat.succ_sub_one] at h
        rw [if_neg (by omega), Nat.add_sub_cancel, ih h, Option.map_map]
        rfl
    · rw [if_neg hc] at h ⊢
      rw [ih h, Option.map_map]
      rfl

/-- **What is open is closed** by tokens behind which nothing is open. By induction on the
tokens, as far as the bracket that closes the last one that is looked for. -/
theorem exists_matching (hm : 0 < m) (h : level (d + m) l = some 0) :
    ∃ i, matching m l = some i := by
  induction l generalizing d m with
  | nil =>
    rw [level, Option.some.injEq] at h
    omega
  | cons t l ih =>
    rw [level] at h
    rw [matching]
    by_cases ho : t.isOpener = true
    · rw [if_pos ho] at h ⊢
      obtain ⟨i, hi⟩ := ih (Nat.succ_pos m) h
      exact ⟨i + 1, by rw [hi]; rfl⟩
    rw [if_neg ho] at h ⊢
    by_cases hc : t.isCloser = true
    · rw [if_pos hc] at h ⊢
      rw [if_neg (by omega)] at h
      split
      · exact ⟨0, rfl⟩
      · obtain ⟨i, hi⟩ :=
          ih (d := d) (m := m - 1) (by omega) (by rwa [Nat.add_sub_assoc hm] at h)
        exact ⟨i + 1, by rw [hi]; rfl⟩
    · rw [if_neg hc] at h ⊢
      obtain ⟨i, hi⟩ := ih hm h
      exact ⟨i + 1, by rw [hi]; rfl⟩

/-- A count that finds a group around tokens behind which nothing is open. -/
theorem matching_group_of_level {o c : Token} (ho : o.isOpener = true) (hc : c.isCloser = true)
    (h : level 0 l = some 0) (u : List Token) :
    matching 0 (o :: (l ++ c :: u)) = some (l.length + 1) := by
  have hend : matching 1 (c :: u) = some 0 := by
    rw [matching, if_neg (by rw [isOpener_of_isCloser hc]; exact Bool.false_ne_true), if_pos hc,
      if_pos (Nat.le_refl 1)]
  rw [matching, if_pos ho, matching_append_of_level h, hend]
  simp

end Exemplar.Brackets
