import Exemplar.Proofs.Text.Splicing
import Exemplar.Proofs.Token.Seams

/-!
# Blanks between tokens

The tokens of a source can be set apart anew. How far a token reaches is settled by its own text
if a blank comes behind it, or nothing: no identifier, number or punctuator goes on with a
blank, and a literal that ends does so whatever follows. There is one thing to watch. An
identifier may end in the middle of an escape, which takes what comes next for a part of it, but
only where the source ends.

So lexing the texts of the tokens with other blanks in between gives the tokens again. The bytes
of a file are no obstacle: a token is read again from its own bytes, since no blank goes on with
an encoding.

The scans of the lexer are taken one by one. Each has a length, and the lemma about it says that
the scan has this length again if the text is cut off there and a text that stands apart
(`Text.Apart`) is put behind the cut. The glyphs in front of the cut are the same, so what a
scan finds there is the same, and only the glyph at the cut has to be looked at: a blank is none
of those by which a scan goes on. Where a scan looks one glyph ahead, that glyph is the old one,
or the blank, and `Text.Apart.head?_any_take` deals with both.
-/

namespace Exemplar

open Exemplar.Text.Identifier

namespace Text

/-- Digits go on in identifiers and blanks do not, so no blank is a digit. -/
theorem isDigit_of_isBlank {c : Char} (hc : isBlank c = true) : c.isDigit = false :=
  Bool.eq_false_iff.2 fun h =>
    Bool.eq_false_iff.1 (isContinue_of_isBlank hc) (isContinue_of_isDigit h)

/-- What is no blank differs from every blank. -/
theorem beq_of_isBlank {c d : Char} (hc : isBlank c = true) (hd : isBlank d = false) :
    (c == d) = false :=
  beq_false_of_ne fun h => Bool.eq_false_iff.1 hd (h ▸ hc)

/-- A text that stands apart from what comes before it: it is empty or starts with a blank. The
empty text is among them so that nothing has to stand behind the last token. -/
def Apart (u : Text) : Prop := ∀ g ∈ u.head?, isBlank g.toChar = true

/-- What no blank passes, the first glyph behind a cut only passes if the glyph that stood there
did. The cut may be at the front, and then the blank is looked at; anywhere else it is the old
glyph. -/
theorem Apart.head?_any_take {u : Text} (hu : u.Apart) {f : Char → Bool}
    (hf : ∀ {c}, isBlank c = true → f c = false)
    (x : Text) (n : Nat) (hx : x.head?.any (fun g => f g.toChar) = false) :
    (x.take n ++ u).head?.any (fun g => f g.toChar) = false := by
  have hblank : u.head?.any (fun g => f g.toChar) = false := by
    cases u with
    | nil => rfl
    | cons g u => exact hf (hu g rfl)
  cases n with
  | zero => exact hblank
  | succ n =>
    cases x with
    | nil => exact hblank
    | cons g x => exact hx

end Text

namespace Lexeme

open Text

variable {x u : Text} {g : Glyph} {k n : Nat}

/-- A number ends where it did if a blank comes there. The cases are those of the scan: it
stops, or takes an exponent and its sign, or takes one glyph. In the last case it has been asked
whether a second point or a sign comes behind, and the answer has to be the same with the blank
there. -/
theorem numberLength_take (hu : u.Apart) (hexadecimal : Bool) (x : Text) :
    numberLength hexadecimal (x.take (numberLength hexadecimal x) ++ u)
      = numberLength hexadecimal x := by
  -- A number does not start with a blank, so nothing is counted behind the cut.
  have hzero : numberLength hexadecimal u = 0 := by
    cases u with
    | nil => rfl
    | cons g u =>
      have hg : (isContinue g.toChar || g.is '.') = false := by
        rw [isContinue_of_isBlank (hu g rfl), Glyph.is,
          beq_of_isBlank (hu g rfl) (by decide), Bool.or_self]
      rw [numberLength.eq_def]
      exact if_pos (by rw [hg]; rfl)
  -- Looking for one of two glyphs at the front fails behind the cut if it failed before.
  have htake : ∀ {a b : Char} {x : Text} {n : Nat}, isBlank a = false → isBlank b = false →
      startsWith x a b = false → startsWith (x.take n ++ u) a b = false := by
    intro a b x n ha hb hx
    rw [startsWith_eq] at hx ⊢
    refine hu.head?_any_take (f := fun c => c == a || c == b) (fun hc => ?_) x n hx
    rw [beq_of_isBlank hc ha, beq_of_isBlank hc hb, Bool.or_self]
  fun_induction numberLength hexadecimal x with
  | case1 => exact hzero
  | case2 => exact hzero
  | case3 => exact hzero
  | case4 g hg k x hp he ih =>
    rw [Nat.add_comm 2, List.take_succ_cons, List.take_succ_cons,
      List.cons_append, List.cons_append, numberLength.eq_def]
    dsimp only
    have hsign : startsWith (k :: (x.take (numberLength hexadecimal x) ++ u)) '+' '-'
        = startsWith (k :: x) '+' '-' :=
      rfl
    have hpoint : startsWith (k :: (x.take (numberLength hexadecimal x) ++ u)) '.' '.'
        = startsWith (k :: x) '.' '.' :=
      rfl
    rw [if_neg hg, hpoint, if_neg hp, hsign, if_pos he, ih, Nat.add_comm]
  | case5 g hg hp he =>
    rw [Bool.and_eq_true] at he
    cases he.2
  | case6 g x hg hp he ih =>
    have hp' :
        ¬(g.is '.' && startsWith (x.take (numberLength hexadecimal x) ++ u) '.' '.') = true := by
      rw [Bool.and_eq_true, not_and, Bool.not_eq_true] at hp ⊢
      exact fun hg => htake (by decide) (by decide) (hp hg)
    have he' : ¬((g.is 'e' || g.is 'E') && !hexadecimal &&
        startsWith (x.take (numberLength hexadecimal x) ++ u) '+' '-') = true := by
      rw [Bool.and_eq_true, not_and, Bool.not_eq_true] at he ⊢
      exact fun hg => htake (by decide) (by decide) (he hg)
    rw [Nat.add_comm 1, List.take_succ_cons, List.cons_append, numberLength.eq_def]
    dsimp only
    rw [if_neg hg, if_neg hp', if_neg he', ih, Nat.add_comm]

/-- Nothing without a blank goes on across one. The comparison would have to come to the blank,
which differs from every glyph of the prefix. -/
theorem isPrefixOf_apart (hu : u.Apart) {p : Text}
    (hp : p.all (fun g => !isBlank g.toChar) = true) :
    p.isPrefixOf (x ++ u) = p.isPrefixOf x := by
  induction p generalizing x with
  | nil => simp
  | cons a p ih =>
    rw [List.all_cons, Bool.and_eq_true, Bool.not_eq_true'] at hp
    cases x with
    | nil =>
      cases u with
      | nil => rfl
      | cons g u =>
        have hne : (a == g) = false := beq_false_of_ne fun h => by
          rw [h, hu g rfl] at hp
          cases hp.1
        simp [List.isPrefixOf, hne]
    | cons g x => simp only [List.cons_append, List.isPrefixOf, ih hp.2]

/-- What is a prefix of the beginning of a text is one of the text. -/
theorem isPrefixOf_of_take {p : Text} (h : p.isPrefixOf (x.take n) = true) :
    p.isPrefixOf x = true :=
  List.isPrefixOf_iff_prefix.2 ((List.isPrefixOf_iff_prefix.1 h).trans (List.take_prefix n x))

/-- **A punctuator ends where it did** if a blank comes there. The scan takes the first
punctuator of the table that is a prefix of the text. None of them has a blank in it. So those
that come before the one that was found are no prefixes of its text either, and it is found
again. -/
theorem punctuatorLength_take (hu : u.Apart) (g : Glyph) (x : Text) :
    punctuatorLength ((g :: x).take (punctuatorLength (g :: x)) ++ u)
      = punctuatorLength (g :: x) := by
  have key : punctuators.all (fun p => (Text.ofString p).all fun g => !isBlank g.toChar)
      = true := by decide
  -- With or without the blank, the same punctuators are prefixes.
  have hsame : ∀ p ∈ punctuators, ∀ n, (Text.ofString p).isPrefixOf ((g :: x).take n ++ u) =
      (Text.ofString p).isPrefixOf ((g :: x).take n) := fun p hp _ =>
    isPrefixOf_apart hu (List.all_eq_true.1 key p hp)
  -- no punctuator is found in the text of the token that was not found before
  have hnot : ∀ {l : List String} {n}, (∀ p ∈ l, p ∈ punctuators) →
      (∀ p ∈ l, ¬(Text.ofString p).isPrefixOf (g :: x) = true) →
      ∀ p ∈ l, ¬(Text.ofString p).isPrefixOf ((g :: x).take n ++ u) = true := by
    intro l n hl h p hp hq
    rw [hsame p (hl p hp)] at hq
    exact h p hp (isPrefixOf_of_take hq)
  unfold punctuatorLength
  cases hf : punctuators.find? (fun p => (Text.ofString p).isPrefixOf (g :: x)) with
  | none =>
    dsimp only
    rw [List.find?_eq_none.2 (hnot (fun _ hp => hp) (List.find?_eq_none.1 hf))]
  | some p =>
    dsimp only
    obtain ⟨hp, front, back, hl, hfront⟩ := List.find?_eq_some_iff_append.1 hf
    have hmem : p ∈ punctuators := List.mem_of_find?_eq_some hf
    have hlen : (Text.ofString p).length = p.length := by
      rw [Text.ofString, List.length_map, String.length_toList]
    -- What was found is the text that was cut off.
    have htake : (g :: x).take p.length = Text.ofString p := by
      rw [← hlen]
      exact (List.prefix_iff_eq_take.1 (List.isPrefixOf_iff_prefix.1 hp)).symm
    have hfound : punctuators.find?
        (fun q => (Text.ofString q).isPrefixOf ((g :: x).take p.length ++ u)) = some p := by
      refine List.find?_eq_some_iff_append.2 ⟨?_, front, back, hl, fun q hq => ?_⟩
      · rw [hsame p hmem, htake]
        exact List.isPrefixOf_iff_prefix.2 (List.prefix_refl _)
      · rw [Bool.not_eq_true', Bool.eq_false_iff]
        refine hnot (l := front)
          (fun q hq => hl ▸ List.mem_append_left _ hq) (fun q hq => ?_) q hq
        exact Bool.eq_false_iff.1 (by simpa using hfront q hq)
    rw [hfound]

/-! ## Literals

A literal that is closed ends with its closing mark. What stands behind the mark has not been
looked at, so nothing has to be assumed about it, unless it could be a flag. -/

/-- The flags of a regular expression end where they did if a blank comes there. They are the
glyphs that could go on in an identifier. -/
theorem flagLength_take (hu : u.Apart) (x : Text) :
    flagLength (x.take (flagLength x) ++ u) = flagLength x := by
  have hzero : u.takeWhile (fun g => isContinue g.toChar) = [] := by
    cases u with
    | nil => rfl
    | cons g u =>
      exact List.takeWhile_cons_of_neg (p := fun g : Glyph => isContinue g.toChar)
        (Bool.eq_false_iff.1 (isContinue_of_isBlank (hu g rfl)))
  unfold flagLength
  induction x with
  | nil => rw [List.takeWhile_nil, List.take_nil, List.nil_append, hzero]
  | cons g x ih =>
    by_cases hg : isContinue g.toChar = true
    · rw [List.takeWhile_cons_of_pos (p := fun g : Glyph => isContinue g.toChar) hg,
        List.length_cons, List.take_succ_cons, List.cons_append,
        List.takeWhile_cons_of_pos (p := fun g : Glyph => isContinue g.toChar) hg,
          List.length_cons, ih]
    · rw [List.takeWhile_cons_of_neg (p := fun g : Glyph => isContinue g.toChar) hg,
        List.length_nil, List.take_zero, List.nil_append, hzero, List.length_nil]

/-- A regular expression that is closed ends where it did, its flags included, if a blank comes
there. -/
theorem regexExtent_take (hu : u.Apart) {inClass : Bool}
    (h : regexExtent inClass x = .closed k) :
    regexExtent inClass (x.take k ++ u) = .closed k := by
  fun_induction regexExtent inClass x generalizing k with
  | case1 | case2 | case4 => cases h
  | case7 inClass g x _ _ _ _ hend =>
    cases h
    rw [Nat.add_comm 1, List.take_succ_cons, List.cons_append, regexExtent.eq_def]
    simp_all [flagLength_take hu, Nat.add_comm]
  | _ =>
    obtain ⟨j, hj, rfl⟩ := extend_eq_closed h
    rw [regexExtent.eq_def]
    simp_all [Extent.extend, Nat.add_comm]

/-! ## Lexemes

What kind of lexeme is read is decided by the first glyph, and at a point by whether a digit
comes behind it. A lexeme that has a digit there contains it. So the decision is the same in
front of a blank, and the scan that is chosen ends where it did. -/

/-- A literal that ends has the same extent in a text that begins like it. The opening mark is a
part of the lexeme but not of what is scanned, which is why one glyph less is taken. -/
theorem delimited_take {kind : Token.Kind} {e : Extent} {f : Text → Extent}
    (hf : (delimited kind e).fault = none)
    (h : ∀ {k}, e = .closed k → f (x.take k ++ u) = .closed k) :
    delimited kind (f (x.take ((delimited kind e).length - 1) ++ u)) = delimited kind e := by
  cases e with
  | closed k =>
    have hk : (delimited kind (.closed k)).length - 1 = k := Nat.add_sub_cancel_left 1 k
    rw [hk, h rfl]
  | broken k f => cases hf

/-- A number that starts with a point still has the digit behind it. The scan takes the point
and goes on, for a digit is no second point, and so the digit is in front of the cut. -/
theorem isDigit_take {hexadecimal : Bool}
    (h : (g.toChar.isDigit || (g.is '.' && x.head?.any fun h => h.toChar.isDigit)) = true)
    (hn : numberLength hexadecimal (g :: x) = n + 1) :
    (g.toChar.isDigit || (g.is '.' && (x.take n ++ u).head?.any fun h => h.toChar.isDigit))
      = true := by
  rw [Bool.or_eq_true, Bool.and_eq_true] at h ⊢
  refine h.imp_right fun ⟨hg, hd⟩ => ⟨hg, ?_⟩
  cases x with
  | nil => cases hd
  | cons d x =>
    have hd : d.toChar.isDigit = true := hd
    have hpoint : d.is '.' = false := by
      rw [Glyph.is, beq_eq_false_iff_ne]
      intro hc
      rw [hc] at hd
      exact absurd hd (by decide)
    have he : g.is 'e' = false ∧ g.is 'E' = false := by
      rw [Glyph.is, beq_iff_eq] at hg
      rw [Glyph.is, Glyph.is, hg]
      decide
    -- The number that starts with the digit is not empty.
    have hrest : 0 < numberLength hexadecimal (d :: x) := numberLength_pos (by rw [hd]; rfl)
    rw [numberLength.eq_def] at hn
    simp only [hg, Bool.or_true, Bool.not_true, Bool.false_eq_true, if_false,
      startsWith, hpoint, Bool.or_self, Bool.and_false, he.1, he.2, Bool.false_and] at hn
    obtain ⟨m, rfl⟩ := Nat.exists_eq_add_one.2 (show 0 < n by omega)
    exact hd

/-- The two glyphs that mark a hexadecimal number belong to it. Neither is a point or an
exponent, so both are taken without looking ahead. -/
theorem numberLength_marker {p : String} (hp : p ∈ ["0x", "0X"])
    (hexadecimal : Bool) (y : Text) :
    numberLength hexadecimal (Text.ofString p ++ y) = 2 + numberLength hexadecimal y := by
  have key : ∀ c ∈ ['0', 'x', 'X'], isContinue c = true ∧
      (c == '.') = false ∧ (c == 'e') = false ∧
      (c == 'E') = false := List.all_iff_forall_prop.1 (by decide)
  have hstep : ∀ c ∈ ['0', 'x', 'X'], ∀ y,
      numberLength hexadecimal (.char c :: y) = 1 + numberLength hexadecimal y := by
    intro c hc y
    obtain ⟨hcontinue, hpoint, he, hE⟩ := key c hc
    rw [numberLength.eq_def]
    simp only [Glyph.is, Glyph.toChar_char, hcontinue, hpoint, he, hE,
      Bool.or_false, Bool.not_true, Bool.false_eq_true, Bool.false_and, if_false]
  have hsplit : ∃ c ∈ ['0', 'x', 'X'], Text.ofString p = [.char '0', .char c] := by
    simp only [List.mem_cons, List.not_mem_nil, or_false] at hp
    rcases hp with rfl | rfl
    · exact ⟨'x', by decide, rfl⟩
    · exact ⟨'X', by decide, rfl⟩
  obtain ⟨c, hc, hp⟩ := hsplit
  rw [hp, List.cons_append, List.singleton_append, hstep '0' (.head _),
    hstep c hc, ← Nat.add_assoc]

/-- A number is still hexadecimal. If its text starts with the marker, the scan takes both
glyphs of it, so they are in front of the cut. If it does not, a cut does not make it one. -/
theorem isHexadecimal_take (hu : u.Apart)
    (hn : numberLength (isHexadecimal (g :: x)) (g :: x) = n + 1) :
    isHexadecimal (g :: (x.take n ++ u)) = isHexadecimal (g :: x) := by
  have hprefix : ∀ p ∈ ["0x", "0X"], (Text.ofString p).isPrefixOf (g :: (x.take n ++ u)) =
      (Text.ofString p).isPrefixOf (g :: x) := by
    intro p hp
    have hcut : g :: (x.take n ++ u) = (g :: x).take (n + 1) ++ u := rfl
    have key : ∀ p ∈ ["0x", "0X"], ((Text.ofString p).all fun g => !isBlank g.toChar)
        = true := by decide
    rw [hcut, isPrefixOf_apart hu (key p hp), Bool.eq_iff_iff]
    refine ⟨isPrefixOf_of_take, fun h => ?_⟩
    have hlen : ∀ p ∈ ["0x", "0X"], (Text.ofString p).length = 2 := by decide
    -- both glyphs belong to the number, whatever comes behind them
    obtain ⟨y, hy⟩ := List.isPrefixOf_iff_prefix.1 h
    rw [← hy, numberLength_marker hp] at hn
    rw [← hy, ← hn, ← hlen p hp, List.take_length_add_append]
    exact List.isPrefixOf_iff_prefix.2 (List.prefix_append _ _)
  rw [isHexadecimal, isHexadecimal, hprefix "0x" (by decide), hprefix "0X" (by decide)]

/-- An identifier ends where it did if a blank comes there. Where the source ends, nothing must
come. The text of the identifier is a name, and a name that is followed by something that cannot
go on in it is read as that name. `hend` is about the name that ends in the middle of an escape:
it is one only where nothing follows. -/
theorem first_take_of_ident {prev : Option Token} (hk : (first prev g x).kind = .ident)
    (hf : (first prev g x).fault = none) (hu : u.Apart)
    (hend : x.drop ((first prev g x).length - 1) = [] → u = []) :
    first prev g (x.take ((first prev g x).length - 1) ++ u) = first prev g x := by
  obtain ⟨n, hn⟩ := Nat.exists_eq_add_one.2 (first_length_pos prev g x)
  have hname := isName_of_first hk hf
  have hle := first_length_le hf
  rw [hn, List.take_succ_cons, Nat.add_sub_cancel] at hname
  rw [hn, Nat.add_sub_cancel] at hend ⊢
  -- A blank neither goes on in a name nor starts an escape.
  have hstops : StopsName u := fun h hh => by
    rw [continues, isContinue_of_isBlank (hu h hh), Glyph.is,
      beq_of_isBlank (hu h hh) (by decide), Bool.or_self]
  rw [first_of_isName (hname.mono hend) hstops, List.length_cons,
    List.length_take, Nat.min_eq_left]
  · show Lexeme.mk .ident (n + 1) none = _
    rw [← hk, ← hn, ← hf]
  · rw [hn, List.length_cons] at hle
    exact Nat.le_of_succ_le_succ hle

/-- **A lexeme is settled by its own text** if a blank comes behind it, or nothing. Where the
source ends behind an identifier, nothing must come. Identifiers are dealt with above. The other
alternatives are gone through in the order in which the lexer tries them: for each it is shown
that those before it are still not taken, and then its scan is the one of the lemma about it. -/
theorem first_take {prev : Option Token} (hf : (first prev g x).fault = none) (hu : u.Apart)
    (hend : x.drop ((first prev g x).length - 1) = [] → u = []) :
    first prev g (x.take ((first prev g x).length - 1) ++ u) = first prev g x := by
  by_cases hk : (first prev g x).kind = .ident
  · exact first_take_of_ident hk hf hu hend
  -- A test on the glyph behind the first one fails before a blank if it failed before.
  have hhead : ∀ {p : Bool} {f : Char → Bool} {n : Nat},
      (∀ {c}, isBlank c = true → f c = false) →
      ¬(p && x.head?.any (fun h => f h.toChar)) = true →
      ¬(p && (x.take n ++ u).head?.any (fun h => f h.toChar)) = true := by
    intro p f n hb hx
    rw [Bool.and_eq_true, not_and, Bool.not_eq_true] at hx ⊢
    exact fun hp => hu.head?_any_take hb x n (hx hp)
  by_cases hstart : (isStart g.toChar || g.is '\\') = true
  · exact absurd (by rw [first, if_pos hstart]; rfl) hk
  by_cases hhash : (g.is '#' && x.head?.any fun h => isStart h.toChar) = true
  · exact absurd (by rw [first, if_neg hstart, if_pos hhash]; rfl) hk
  have hhash' (n : Nat) := hhead (n := n) isStart_of_isBlank hhash
  generalize hL : first prev g x = L at hf hk ⊢
  rw [first, if_neg hstart, if_neg hhash] at hL
  split at hL
  · rename_i hnumber
    subst hL
    have htake := numberLength_take hu (isHexadecimal (g :: x)) (g :: x)
    have hpos : 0 < numberLength (isHexadecimal (g :: x)) (g :: x) := numberLength_pos hnumber
    generalize hn : numberLength (isHexadecimal (g :: x)) (g :: x) = n at htake hpos ⊢
    obtain ⟨n, rfl⟩ := Nat.exists_eq_add_one.2 hpos
    rw [List.take_succ_cons, List.cons_append] at htake
    show first prev g (x.take (n + 1 - 1) ++ u) = _
    rw [Nat.add_sub_cancel, first, if_neg hstart, if_neg (hhash' n),
      if_pos (isDigit_take hnumber hn), isHexadecimal_take hu hn, htake]
  rename_i hnumber
  have hnumber' (n : Nat) :
      ¬(g.toChar.isDigit || (g.is '.' && (x.take n ++ u).head?.any fun h => h.toChar.isDigit))
          = true := by
    rw [Bool.or_eq_true, not_or] at hnumber ⊢
    exact hnumber.imp_right (hhead isDigit_of_isBlank)
  rw [first, if_neg hstart, if_neg (hhash' _), if_neg (hnumber' _)]
  split at hL
  · rename_i hquote
    subst hL
    rw [if_pos hquote]
    exact delimited_take hf fun h => stringExtent_take_append h u
  rename_i hquote
  rw [if_neg hquote]
  split at hL
  · rename_i htick
    subst hL
    rw [if_pos htick]
    exact delimited_take hf fun h => templateExtent_take_append h u
  rename_i htick
  rw [if_neg htick]
  split at hL
  · rename_i hslash
    subst hL
    rw [if_pos hslash]
    exact delimited_take hf (regexExtent_take hu)
  · rename_i hslash
    subst hL
    obtain ⟨n, hn⟩ := Nat.exists_eq_add_one.2 (punctuatorLength_pos (g :: x))
    have htake := punctuatorLength_take hu g x
    rw [hn, List.take_succ_cons, List.cons_append] at htake
    rw [if_neg hslash]
    show Lexeme.whole .punct
      (punctuatorLength (g :: (x.take (punctuatorLength (g :: x) - 1) ++ u))) = _
    rw [hn, Nat.add_sub_cancel, htake]

end Lexeme

namespace Gap

open Text

variable {g : Glyph} {x more u w : Text}

/-- Where a gap ends, it ends as well if the text is cut off there before a blank. A gap ends at
a glyph that is no blank and starts no comment. For a slash the glyph behind it matters, and a
blank in its place makes no comment of it. -/
theorem next?_take (hu : u.Apart) (n : Nat) (h : Mode.blank.next? g more = Option.none) :
    Mode.blank.next? g (more.take n ++ u) = Option.none := by
  have hstart : ∀ {c}, isBlank c = false → ¬(g.is '/' && startsWith more c) = true →
      ¬(g.is '/' && startsWith (more.take n ++ u) c) = true := by
    intro c hc hx
    rw [Bool.and_eq_true, not_and, Bool.not_eq_true] at hx ⊢
    exact fun hg =>
      hu.head?_any_take (f := (· == c)) (fun hb => beq_of_isBlank hb hc) more n (hx hg)
  simp only [Mode.next?] at h ⊢
  split at h
  · cases h
  rename_i hl
  split at h
  · cases h
  rename_i hb
  split at h
  · cases h
  rename_i hline
  split at h
  · cases h
  rename_i hblock
  rw [if_neg hl, if_neg hb, if_neg (hstart (by decide) hline),
    if_neg (hstart (by decide) hblock)]

/-- **Blanks are a gap**, and a line ends in it if one of them ends a line. Each blank is taken
in the mode of blanks and leaves it as it is, and the glyph behind the last one stops the
scan. -/
theorem before_blanks (hw : ∀ h ∈ w, isBlank h.toChar = true)
    (hn : Mode.blank.next? g x = Option.none) :
    before (w ++ g :: x) = ⟨w.length, w.any (fun h => isLineEnd h.toChar), true⟩ := by
  unfold before
  induction w with
  | nil => rw [List.nil_append, scan, hn]; rfl
  | cons h w ih =>
    have hstep : Mode.blank.next? h (w ++ g :: x) = some (.blank, isLineEnd h.toChar) := by
      simp only [Mode.next?, hw h List.mem_cons_self, if_true]
      cases isLineEnd h.toChar <;> rfl
    rw [List.cons_append, scan, hstep]
    dsimp only
    rw [ih fun k hk => hw k (List.mem_cons_of_mem _ hk), extend, List.length_cons,
      List.any_cons, Nat.add_comm]

end Gap

namespace TokenStream

open Text

/-- Texts with a text in front of each. -/
def spaced (ws ts : List Text) : Text := (List.zipWith (· ++ ·) ws ts).flatten

/-- Such texts stand apart from what comes before, if those in front are blanks and none of them
is empty. -/
theorem apart_spaced {ws : List Text} (hblank : ∀ w ∈ ws, ∀ g ∈ w, isBlank g.toChar = true)
    (hne : ∀ w ∈ ws, w ≠ []) (ts : List Text) : Apart (spaced ws ts) := by
  cases ws with
  | nil => exact nofun
  | cons w ws =>
    cases ts with
    | nil => exact nofun
    | cons t ts =>
      cases w with
      | nil => exact absurd rfl (hne [] List.mem_cons_self)
      | cons g w =>
        intro h hh
        obtain rfl := Option.some.inj hh
        exact hblank _ List.mem_cons_self g List.mem_cons_self

/-- **A token set apart anew is lexed again**, and what comes behind it is lexed behind it. Here
`w` are the new blanks and `u` is what comes behind the token. The token before may be another
one, as long as a regular expression is allowed behind the one exactly if it is behind the
other. What the new token is like is said by its word: the kind and the text of the old one, and
a line end where the blanks have one. -/
theorem lexFrom_apart {prev prev' : Option Token} (start here : Position)
    (newline : Bool) {w u more : Text}
    {g : Glyph} (hprev : Lexeme.regexAllowed prev = Lexeme.regexAllowed prev')
    (hstop : Gap.Mode.blank.next? g more = none) (hl : (Lexeme.first prev g more).fault = none)
    (hw : ∀ h ∈ w, isBlank h.toChar = true) (hu : u.Apart)
    (hend : more.drop ((Lexeme.first prev g more).length - 1) = [] → u = []) :
    let t := tokenAt prev start newline g more
    ∃ t' : Token, t'.word = ⟨t.kind, t.text, w.any fun h => isLineEnd h.toChar⟩ ∧
      lexFrom prev' here (w ++ (t.text ++ u)) = cons t' (lexFrom (some t') t'.stop u) := by
  intro t
  obtain ⟨k, hk⟩ := Nat.exists_eq_add_one.2 (Lexeme.first_length_pos prev g more)
  -- The lexeme is the same in front of `u`, and so behind another token of that sort.
  have hfirst : Lexeme.first prev' g (more.take k ++ u) = Lexeme.first prev g more := by
    have hcut := Lexeme.first_take hl hu hend
    rw [hk, Nat.add_sub_cancel] at hcut
    rw [← hcut]
    exact (Lexeme.first_congr hprev g _).symm
  have htext : t.text = g :: more.take k := by
    show (g :: more).take (Lexeme.first prev g more).length = _
    rw [hk, List.take_succ_cons]
  have hle := Lexeme.first_length_le hl
  rw [hk, List.length_cons] at hle
  have htake : (more.take k).length = k := by rw [List.length_take]; omega
  -- The gap in front of it is made up of the blanks alone.
  have hgap : Gap.before (w ++ g :: (more.take k ++ u))
      = ⟨w.length, w.any fun h => isLineEnd h.toChar, true⟩ :=
    Gap.before_blanks hw (Gap.next?_take hu k hstop)
  have hdrop :
      (w ++ g :: (more.take k ++ u)).drop (Gap.before (w ++ g :: (more.take k ++ u))).length =
      g :: (more.take k ++ u) := by rw [hgap, List.drop_left]
  refine ⟨tokenAt prev' (here.after w) (w.any fun h => isLineEnd h.toChar) g
    (more.take k ++ u), ?_, ?_⟩
  · have htext' : (g :: (more.take k ++ u)).take (Lexeme.first prev' g (more.take k ++ u)).length
        = t.text := by
      rw [hfirst, hk, List.take_succ_cons, List.take_left' htake, htext]
    rw [Token.word, tokenAt]
    dsimp only
    rw [htext', hfirst]
    rfl
  · rw [htext, List.cons_append, lexFrom_of_token (by rw [hgap]) hdrop (hfirst ▸ hl), hfirst, hk,
      Nat.add_sub_cancel, hgap, List.drop_left' htake, List.take_left]

/-- **The tokens of a text, set apart anew, are lexed again.** The blanks `ws` stand in front of
the tokens, and none but the first of them may be empty. The induction is on the length of the
text. What comes behind the first token is set apart from it by a blank, or is nothing, and it
is nothing in the old text only if it is in the new one, as `lexFrom_apart` asks for. From there
on both are lexed behind tokens of the same kind and text, so regular expressions are allowed
behind both or neither. -/
theorem lexFrom_spaced {prev prev' : Option Token} (here here' : Position)
    {x : Text} {ws : List Text}
    (hprev : Lexeme.regexAllowed prev = Lexeme.regexAllowed prev')
    (hf : (lexFrom prev here x).ending.fault = none)
    (hlen : ws.length = (lexFrom prev here x).tokens.length)
    (hblank : ∀ w ∈ ws, ∀ g ∈ w, isBlank g.toChar = true) (hne : ∀ w ∈ ws.tail, w ≠ []) :
    let s := lexFrom prev' here' (spaced ws ((lexFrom prev here x).tokens.map Token.text))
    s.ending.fault = none ∧
      s.tokens.map (fun t => (t.kind, t.text))
      = (lexFrom prev here x).tokens.map (fun t => (t.kind, t.text)) ∧
      s.tokens.map Token.newlineBefore = ws.map fun w => w.any fun g => isLineEnd g.toChar := by
  induction hn : x.length using Nat.strongRecOn generalizing prev prev' here here' x ws with
  | _ n ih =>
    obtain ⟨hc, ⟨-, hnil⟩ | ⟨g, more, hd, hl⟩⟩ := lexFrom_cases hf
    · have hend (p : Option Token) (h : Position) : (lexFrom p h []).ending.fault = none := by
        rw [lexFrom_eq]
        rfl
      rw [hnil, spaced, List.map_nil, List.zipWith_nil_right, List.flatten_nil]
      rw [hnil, List.length_nil, List.length_eq_zero_iff] at hlen
      rw [hlen]
      exact ⟨hend _ _, by rw [lexFrom_nil], by rw [lexFrom_nil]; rfl⟩
    rw [lexFrom_of_token hc hd hl] at hf hlen ⊢
    obtain ⟨w, ws, rfl⟩ := List.exists_cons_of_length_eq_add_one hlen
    dsimp only [cons] at hf hlen ⊢
    generalize htoken :
      tokenAt prev (here.after (x.take (Gap.before x).length)) (Gap.before x).newline g more = t
      at hf hlen ⊢
    generalize hrest : more.drop ((Lexeme.first prev g more).length - 1) = rest at hf hlen ⊢
    have hblank' : ∀ w ∈ ws, ∀ g ∈ w, isBlank g.toChar = true :=
      fun w hw => hblank w (List.mem_cons_of_mem _ hw)
    have hapart :=
      apart_spaced hblank' hne ((lexFrom (some t) t.stop rest).tokens.map Token.text)
    have hend : rest = [] →
        spaced ws ((lexFrom (some t) t.stop rest).tokens.map Token.text) = [] := by
      rintro rfl
      rw [lexFrom_nil, spaced, List.map_nil, List.zipWith_nil_right, List.flatten_nil]
    obtain ⟨t', hword, hstep⟩ := lexFrom_apart (here.after (x.take (Gap.before x).length)) here'
      (Gap.before x).newline hprev (Gap.next?_of_drop hc hd) hl
      (hblank w List.mem_cons_self) hapart
      (fun h => hend (hrest ▸ h))
    rw [htoken] at hword hstep
    obtain ⟨hkind, htext, hnewline⟩ := Word.mk.inj hword
    -- Whether a regular expression may come next depends on the kind and the text only.
    have hallowed : Lexeme.regexAllowed (some t) = Lexeme.regexAllowed (some t') := by
      simp only [Lexeme.regexAllowed, hkind, htext]
    have hlt : rest.length < n := by
      rw [← hrest, ← hn]
      exact length_drop_lt hd _
    obtain ⟨hfault, hpairs, hlines⟩ :=
      ih rest.length hlt t.stop t'.stop hallowed hf (Nat.succ.inj hlen) hblank'
      (fun w hw => hne w (List.mem_of_mem_tail hw)) rfl
    -- The first blanks and the first token are split off.
    have hsplit :
        spaced (w :: ws) ((t :: (lexFrom (some t) t.stop rest).tokens).map Token.text) =
        w ++ (t.text ++ spaced ws ((lexFrom (some t) t.stop rest).tokens.map Token.text)) := by
      rw [spaced, List.map_cons, List.zipWith_cons_cons, List.flatten_cons, List.append_assoc]
      rfl
    rw [hsplit, hstep]
    exact ⟨hfault, by rw [cons, List.map_cons, hpairs, hkind, htext, List.map_cons],
      by rw [cons, List.map_cons, hlines, hnewline, List.map_cons]⟩

/-! ## In a file

A file is a list of bytes, and the bytes of its tokens are put together with the bytes of the
strings in between. To lex the result it has to be decoded, and bytes that were cut out of a
file might be completed by what comes behind them to an encoding that was not there. The first
byte of a string never completes one, since it starts a character. -/

/-- Every token is a piece of the text it is lexed from. The lexer covers its source with gaps
and tokens, so this is an induction on the covering. -/
theorem Covers.text_isInfix {here : Position} {x : Text}
    {s : TokenStream} (h : Covers here x s) :
    ∀ t ∈ s.tokens, t.text <:+: x := by
  induction h with
  | gap | comment | literal => exact nofun
  | @token here gap more t s _ _ _ _ _ _ _ ih =>
    intro u hu
    rcases List.mem_cons.1 hu with rfl | hu
    · exact ⟨gap, more, by rw [List.append_assoc]⟩
    · exact (ih u hu).trans ⟨gap ++ t.text, [], by rw [List.append_nil, List.append_assoc]⟩

/-- The bytes of tokens, with a string between each two. -/
def respaced (ws : List String) (ts : List Token) : List UInt8 :=
  (List.zipWith (fun w t => (ofString w).encode ++ t.text.encode) ("" :: ws) ts).flatten

/-- What is set apart anew in a file is read so. The tokens are pieces of the file, and a piece
is read as what it is in front of a byte that starts a character (`decode_slice_append`). -/
theorem decode_spaced {bytes : List UInt8} {ws : List String} {ts : List Token}
    (hne : ∀ w ∈ ws.tail, w ≠ "")
    (hts : ∀ t ∈ ts, t.text <:+: decode bytes) :
    decode (List.zipWith (fun w t => (ofString w).encode ++ t.text.encode) ws ts).flatten =
      spaced (ws.map ofString) (ts.map Token.text) := by
  induction ts generalizing ws with
  | nil => simp [spaced, decode, decodeFrom]
  | cons t ts ih =>
    cases ws with
    | nil => rfl
    | cons w ws =>
      obtain ⟨p, q, hpq⟩ := hts t List.mem_cons_self
      rw [List.append_assoc] at hpq
      -- what comes behind the token starts with a character of the next string
      have hhead : ∀ b
          ∈ (List.zipWith (fun w t => (ofString w).encode ++ t.text.encode) ws ts).flatten.head?,
          isTail b = false := by
        cases ts with
        | nil => rw [List.zipWith_nil_right]; exact fun b hb => by cases hb
        | cons t' ts =>
          cases ws with
          | nil => exact fun b hb => by cases hb
          | cons v ws =>
            obtain ⟨c, l, hv⟩ := List.exists_cons_of_ne_nil
              (fun h => hne v List.mem_cons_self (String.toList_eq_nil_iff.1 h))
            intro b hb
            refine isTail_head_bytes c b ?_
            obtain ⟨b', xs, hbytes, -⟩ := leading?_bytes c []
            rw [List.zipWith_cons_cons, List.flatten_cons, ofString, hv,
              List.map_cons, encode_cons, Glyph.bytes, hbytes] at hb
            rw [Glyph.bytes, hbytes]
            exact hb
      have htail : ∀ v ∈ ws.tail, v ≠ "" := fun v hv => hne v (List.mem_of_mem_tail hv)
      rw [List.zipWith_cons_cons, List.flatten_cons, List.append_assoc, decode_ofString_append,
        decode_slice_append hpq.symm hhead,
        ih htail fun t ht => hts t (List.mem_cons_of_mem _ ht)]
      simp [spaced]

/-- **Spacing a file anew does not change its tokens.** If the file is lexed without a fault,
the texts of its tokens with blanks between each two are lexed without a fault to tokens of the
same kinds with the same texts, and a line ends before a token exactly if it does in the blanks
in front of it. In front of the first token nothing is put, and whether a line ended there is
not said. The statement follows from `lexFrom_spaced` by reading the bytes. -/
theorem lex_respaced (bytes : List UInt8) (ws : List String)
    (hf : (lex (decode bytes)).ending.fault = none)
    (hlen : ws.length = (lex (decode bytes)).tokens.length - 1) (hne : ∀ w ∈ ws, w ≠ "")
    (hblank : ∀ w ∈ ws, ∀ c ∈ w.toList, isBlank c = true) :
    let s := lex (decode (respaced ws (lex (decode bytes)).tokens))
    s.ending.fault = none ∧
      s.tokens.map (fun t => (t.kind, t.text))
      = (lex (decode bytes)).tokens.map (fun t => (t.kind, t.text)) ∧
      s.tokens.tail.map Token.newlineBefore = ws.map fun w => w.toList.any isLineEnd := by
  -- The tokens are pieces of the file.
  have htexts : ∀ t ∈ (lex (decode bytes)).tokens, t.text <:+: decode bytes :=
    (covers_lexFrom none .start (decode bytes)).text_isInfix
  -- So what is put together is read as the texts with the strings in front of them.
  have hread : decode (respaced ws (lex (decode bytes)).tokens) =
      spaced (("" :: ws).map ofString) ((lex (decode bytes)).tokens.map Token.text) :=
        decode_spaced hne htexts
  rw [hread]
  cases htokens : (lex (decode bytes)).tokens with
  | nil =>
    obtain rfl : ws = [] := List.eq_nil_of_length_eq_zero (by rw [hlen, htokens]; rfl)
    have hnil : (lex []).tokens = [] := lexFrom_nil _ _
    refine ⟨?_, congrArg _ hnil, congrArg (fun l => (l.tail).map Token.newlineBefore) hnil⟩
    show (lex []).ending.fault = none
    rw [lex, lexFrom_eq]
    rfl
  | cons t ts =>
    -- The strings are blanks, and but for the first they are not empty.
    have hall : ∀ w ∈ ("" :: ws).map ofString, ∀ g ∈ w, isBlank g.toChar = true := by
      intro w hw g hg
      obtain ⟨v, hv, rfl⟩ := List.mem_map.1 hw
      obtain ⟨c, hc, rfl⟩ := List.mem_map.1 hg
      rcases List.mem_cons.1 hv with rfl | hv
      · cases hc
      · exact hblank v hv c hc
    have hsome : ∀ w ∈ (("" :: ws).map ofString).tail, w ≠ [] := by
      intro w hw hnil
      obtain ⟨v, hv, rfl⟩ := List.mem_map.1 hw
      exact hne v hv (ofString_inj.1 hnil)
    have hboth : (("" :: ws).map ofString).length = (lex (decode bytes)).tokens.length := by
      rw [List.length_map, List.length_cons, hlen, htokens, List.length_cons, Nat.add_sub_cancel]
    obtain ⟨hfault, hpairs, hlines⟩ := lexFrom_spaced .start .start rfl hf hboth hall hsome
    rw [← htokens]
    refine ⟨hfault, hpairs, ?_⟩
    rw [List.map_tail]
    refine (congrArg List.tail hlines).trans ?_
    rw [List.map_cons, List.map_cons, List.tail_cons, List.map_map]
    refine List.map_congr_left fun w _ => ?_
    rw [Function.comp_apply, ofString, List.any_map]
    rfl

/-- A line ends between an assignment and the regular expression that is assigned. -/
theorem lex_respaced_regex :
    let tokens := (lex (decode (ofString "a=/b c/g").encode)).tokens
    let s := lex (decode (respaced [" ", "\u2028\t"] tokens))
    s.ending.fault = none ∧
      s.tokens.map (fun t => (t.kind, t.text)) = tokens.map (fun t => (t.kind, t.text)) ∧
      s.tokens.tail.map Token.newlineBefore = [false, true] :=
  lex_respaced _ [" ", "\u2028\t"] (by decide +kernel) (by decide +kernel) (by decide)
    fun w hw => List.all_eq_true.1 (by revert w hw; decide)

end TokenStream

end Exemplar
