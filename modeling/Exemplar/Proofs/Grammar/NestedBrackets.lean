import Exemplar.Grammar.Brackets
import Exemplar.Proofs.Token.Words

/-!
# Properly nested brackets

A sequence of tokens is nested if its brackets pair up, each with one of its own kind and around
a nested sequence. The scan that tells a closing bracket of the right kind from one of the wrong
kind is blind to a nested sequence inside the group: it measures it and goes on behind it. So it
finds the end of a group around a nested sequence.
-/

namespace Exemplar.Brackets

/-- The brackets of a sequence of tokens pair up. -/
inductive Nested : List Token → Prop
  /-- Nothing is nested. -/
  | nil : Nested []
  /-- A token that is no bracket may stand anywhere. -/
  | plain {t : Token} {rest : List Token} (ho : t.isOpener = false) (hc : t.isCloser = false)
      (h : Nested rest) : Nested (t :: rest)
  /-- A group is an opening bracket, a nested sequence and the bracket that closes it. -/
  | group {o c : Token} {inner rest : List Token} (ho : o.isOpener = true)
      (hc : c.isCloser = true)
      (ht : c.text = o.closer) (hi : Nested inner) (h : Nested rest) :
      Nested (o :: (inner ++ c :: rest))

theorem Nested.append {s u : List Token} (hs : Nested s) (hu : Nested u) : Nested (s ++ u) := by
  induction hs with
  | nil => exact hu
  | plain ho hc _ ih => exact .plain ho hc ih
  | group ho hc ht hi _ _ ih =>
    rw [List.cons_append, List.append_assoc]
    exact .group ho hc ht hi ih

/-- Whether brackets pair up is a matter of the words. -/
theorem Nested.of_words {s t : List Token} (hs : Nested s)
    (h : t.map Token.word = s.map Token.word) : Nested t := by
  -- Two tokens that are one word have the same kind and text.
  have hkind : ∀ {a b : Token}, a.word = b.word → a.kind = b.kind ∧ a.text = b.text := by
    intro a b hab
    exact ⟨congrArg Word.kind hab, congrArg Word.text hab⟩
  induction hs generalizing t with
  | nil =>
    rw [List.map_nil, List.map_eq_nil_iff] at h
    rw [h]; exact .nil
  | plain ho hc _ ih =>
    obtain ⟨a, rest, rfl, ha, hrest⟩ := List.map_eq_cons_iff.1 h
    obtain ⟨hk, hx⟩ := hkind ha
    refine .plain ?_ ?_ (ih hrest)
    · rw [← ho, Token.isOpener, Token.isOpener, hk, hx]
    · rw [← hc, Token.isCloser, Token.isCloser, hk, hx]
  | group ho hc ht _ _ ihi ih =>
    obtain ⟨a, rest, rfl, ha, hrest⟩ := List.map_eq_cons_iff.1 h
    rw [List.map_append] at hrest
    obtain ⟨inner, rest, rfl, hinner, hrest⟩ := List.map_eq_append_iff.1 hrest
    obtain ⟨b, rest, rfl, hb, hrest⟩ := List.map_eq_cons_iff.1 hrest
    obtain ⟨hka, hxa⟩ := hkind ha
    obtain ⟨hkb, hxb⟩ := hkind hb
    refine .group ?_ ?_ ?_ (ihi hinner) (ih hrest)
    · rw [← ho, Token.isOpener, Token.isOpener, hka, hxa]
    · rw [← hc, Token.isCloser, Token.isCloser, hkb, hxb]
    · rw [hxb, ht, Token.closer, Token.closer, hxa]

/-- No bracket is both opening and closing. -/
theorem isOpener_of_isCloser {t : Token} (h : t.isCloser = true) : t.isOpener = false := by
  have key : ∀ s ∈ [")", "]", "\x7d"], ∀ r ∈ ["(", "[", "\x7b"],
      Text.ofString s ≠ Text.ofString r := by decide
  simp only [Token.isCloser, Bool.and_eq_true, Bool.or_eq_true, beq_iff_eq] at h
  simp only [Token.isOpener, Bool.and_eq_false_iff, Bool.or_eq_false_iff, beq_eq_false_iff_ne]
  right
  rcases h.2 with (h | h) | h <;> rw [h] <;> decide

/-- A scan with so many more tokens in front. -/
def Scan.shift (n : Nat) : Scan → Scan
  | .closed m => .closed (m + n)
  | .mismatch m => .mismatch (m + n)
  | .unclosed c => .unclosed c

@[simp] theorem Scan.shift_zero (x : Scan) : x.shift 0 = x := by cases x <;> rfl

theorem Scan.next_shift (n : Nat) (x : Scan) : (x.shift n).next = x.shift (n + 1) := by
  cases x <;> rfl

/-- **The scan for the end of a group passes over a nested sequence.** -/
theorem scan_append {s : List Token} (hs : Nested s) (top : Text) (outer : List Text)
    (u : List Token) : scan top outer (s ++ u) = (scan top outer u).shift s.length := by
  induction hs generalizing top outer u with
  | nil => simp
  | plain ho hc _ ih => cases outer <;> simp [scan, ho, hc, ih, Scan.next_shift]
  | @group o c inner rest ho hc ht _ _ ihi ih =>
    have hcl : scan o.closer (top :: outer) (c :: (rest ++ u))
        = (scan top outer (rest ++ u)).next := by
      simp [scan, isOpener_of_isCloser hc, hc, ht]
    have hop : ∀ more, scan top outer (o :: more)
        = (scan o.closer (top :: outer) more).next := by
      intro more
      cases outer <;> simp [scan, ho]
    rw [List.cons_append, List.append_assoc, List.cons_append, hop, ihi, hcl, ih]
    cases scan top outer u <;> simp [Scan.shift, Scan.next] <;> omega

/-- **A group around a nested sequence ends behind it.** -/
theorem scanGroup?_group {o c : Token} {inner : List Token} (ho : o.isOpener = true)
    (hc : c.isCloser = true) (ht : c.text = o.closer) (hi : Nested inner) (u : List Token) :
    scanGroup? (o :: (inner ++ c :: u)) = some (.closed (inner.length + 2)) := by
  have hcl : scan o.closer [] (c :: u) = .closed 1 := by
    simp [scan, isOpener_of_isCloser hc, hc, ht]
  rw [scanGroup?, if_pos ho, scan_append hi, hcl]
  simp [Scan.shift, Scan.next]; omega

end Exemplar.Brackets
