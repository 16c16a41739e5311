import Exemplar.Proofs.Token.Partition
import Mathlib.Data.Bool.AllAny

/-!
# Where two texts meet

Nothing but a literal or a block comment reaches over the end of a line. So if nothing is left
open at the end of a text, the text is lexed in front of a line feed as it is lexed alone, and
what comes behind the line feed is lexed as if it were alone, at another place. The one
exception is an identifier that ends in the middle of an escape, which would take the line feed
for a part of it.

A space is as good as a line feed, unless it is a part of a comment that only the end of the
line ends. The two are the seams at which texts are put together, and everything below is said
for both at once.

The scans of the lexer look at one or two glyphs ahead, and this is the only way in which what
comes behind a text could matter. So for each scan it is asked first whether a seam is among the
glyphs that it looks for. It never is: no mark, no punctuator and no sign contains one. What is
left is the case that a scan comes to the end of the text. A scan that wants a closing mark has
found it before, or something is left open; a scan that takes as much as it can stops at the
seam.
-/

namespace Exemplar

open Exemplar.Text.Identifier

/-- A text behind a line feed. -/
abbrev Text.behindLine (u : Text) : Text := .char '\n' :: u

/-- The characters at which pieces of a source can be put together. -/
def seams : List Char := ['\n', ' ']

/-- A text behind a seam. -/
abbrev Text.behind (b : Char) (u : Text) : Text := .char b :: u

namespace Gap

variable {m : Mode} {x u : Text} {b : Char}

theorem startsWith_behind (hb : b ∈ seams) {c : Char} (hc : c ∉ seams) :
    startsWith (x ++ u.behind b) c = startsWith x c := by
  cases x with
  | nil =>
    have hne : b ≠ c := fun h => hc (h ▸ hb)
    simp [startsWith, Glyph.is, hne]
  | cons g x => rfl

/-- One step of the scan looks for a slash or an asterisk behind the glyph, and neither is a
seam. -/
theorem next?_behind (hb : b ∈ seams) (g : Glyph) :
    m.next? g (x ++ u.behind b) = m.next? g x := by
  cases m with
  | blank => simp only [Mode.next?, startsWith_behind hb (by decide : '/' ∉ seams),
      startsWith_behind hb (by decide : '*' ∉ seams)]
  | block => simp only [Mode.next?, startsWith_behind hb (by decide : '/' ∉ seams)]
  | line | opening | closing => rfl

/-- A gap lies in its text. -/
theorem length_scan_le (m : Mode) (x : Text) : (scan m x).length ≤ x.length := by
  induction x generalizing m with
  | nil => exact Nat.le_refl 0
  | cons g x ih =>
    rw [scan]
    cases m.next? g x with
    | none => exact Nat.zero_le _
    | some r =>
      have hle := ih r.1
      show 1 + (scan r.1 x).length ≤ x.length + 1
      omega

/-- A gap that ends inside a text ends there as well if a seam comes behind the text. The scan
has stopped at a glyph of the text, and of what comes behind that glyph it has looked at one
glyph at most. -/
theorem scan_behind_of_lt (hb : b ∈ seams) (h : (scan m x).length < x.length) :
    scan m (x ++ u.behind b) = scan m x := by
  induction x generalizing m with
  | nil => exact absurd h (Nat.not_lt_zero _)
  | cons g x ih =>
    rw [List.cons_append, scan, scan, next?_behind hb]
    rw [scan] at h
    cases hn : m.next? g x with
    | none => rfl
    | some r =>
      obtain ⟨m', newline⟩ := r
      rw [hn] at h
      dsimp only [extend] at h ⊢
      rw [ih (by simp only [List.length_cons] at h; omega)]

/-- Where the scan of a gap may come to a seam: a comment up to the end of the line must not be
open there, unless the seam ends the line. -/
def Mode.Meets (m : Mode) (b : Char) (x : Text) : Prop :=
  b = '\n' ∨ m = .blank ∧ ∀ g ∈ x, g.is '/' = false

/-- In the mode of blanks without a slash in the text, a step stays in that mode. -/
theorem Mode.Meets.next {g : Glyph} {m' : Mode} {newline : Bool} (h : m.Meets b (g :: x))
    (hn : m.next? g x = some (m', newline)) : m'.Meets b x := by
  refine h.imp_right fun ⟨hm, hx⟩ => ⟨?_, fun k hk => hx k (List.mem_cons_of_mem _ hk)⟩
  rw [hm] at hn
  simp only [Mode.next?, hx g List.mem_cons_self, Bool.false_and, Bool.false_eq_true, if_false]
    at hn
  split at hn
  · exact (congrArg Prod.fst (Option.some.inj hn)).symm
  · split at hn
    · exact (congrArg Prod.fst (Option.some.inj hn)).symm
    · cases hn

/-- A gap that reaches to the end of a text goes on behind it. The mode in which the text ends
is one in which a gap may end (`closed`), so it is that of blanks or that of a comment up to the
end of the line. Either takes a line feed and is in the mode of blanks behind it. A space is
taken in the mode of blanks only, and `Meets` sees to it. -/
theorem scan_behind_of_eq (hb : b ∈ seams) (hm : m.Meets b x) (h : (scan m x).length = x.length)
    (hc : (scan m x).closed = true) :
    scan m (x ++ u.behind b)
      = (before u).extend (x.length + 1) ((scan m x).newline || b == '\n') := by
  induction x generalizing m with
  | nil =>
    -- The scan ends in a mode in which a gap may end.
    have hend : m = .blank ∨ m = .line := by
      simpa [scan, Mode.mayEnd] using hc
    have hn : m.next? (.char b) u = some (.blank, b == '\n') := by
      rcases List.mem_cons.1 hb with rfl | hb
      · rcases hend with rfl | rfl
        · simp [Mode.next?, Text.isLineEnd]
        · simp [Mode.next?, Glyph.is]
      · obtain rfl := List.mem_singleton.1 hb
        obtain ⟨rfl, -⟩ := hm.resolve_left (by decide)
        simp [Mode.next?, Text.isLineEnd, Text.isBlank, Text.isSpace]
    rw [List.nil_append, Text.behind, scan, scan, hn]
    rfl
  | cons g x ih =>
    rw [List.cons_append, scan, next?_behind hb, scan]
    rw [scan] at h hc
    cases hn : m.next? g x with
    | none => rw [hn] at h; cases h
    | some r =>
      obtain ⟨m', newline⟩ := r
      rw [hn] at h hc
      dsimp only [extend] at h hc ⊢
      -- The line ends that were met before the end are remembered, in whatever order.
      rw [ih (hm.next hn) (by simp only [List.length_cons] at h; omega) hc]
      simp only [extend, List.length_cons, Bool.or_assoc]
      congr 1
      omega

end Gap

namespace Lexeme

variable {x u : Text} {b : Char}

/-! ## Words and marks

A name and a number take as many glyphs as they can, and a punctuator is the longest that is a
prefix. None of them contains a seam, so none goes on across one. -/

/-- Nothing without a seam goes on across one. If the text is shorter, the word would have to go
on with the seam. -/
theorem isPrefixOf_behind {p : Text} (hp : Glyph.char b ∉ p) :
    p.isPrefixOf (x ++ u.behind b) = p.isPrefixOf x := by
  induction p generalizing x with
  | nil => simp
  | cons a p ih =>
    rw [List.mem_cons, not_or] at hp
    cases x with
    | nil => simp [List.isPrefixOf, Ne.symm hp.1]
    | cons g x => simp only [List.cons_append, List.isPrefixOf, ih hp.2]

/-- Outside an escape, an identifier without a backslash stays there. Only a backslash opens an
escape, so the scan is in one of the two modes in which a name may end, and stays there. -/
theorem read_of_plain (h : ∀ g ∈ x, g.is '\\' = false) {m : NameMode} (hm : m.Done)
    {m' : NameMode} (hr : m.read x = some m') : m'.Done := by
  induction x generalizing m with
  | nil => cases hr; exact hm
  | cons g x ih =>
    rw [NameMode.read_cons] at hr
    obtain ⟨m₁, hn, hr⟩ := Option.bind_eq_some_iff.1 hr
    refine ih (fun k hk => h k (List.mem_cons_of_mem _ hk)) ?_ hr
    have hg := h g List.mem_cons_self
    rcases hm with rfl | rfl <;> simp only [NameMode.next?, hg, Bool.false_eq_true, if_false,
      Option.ite_none_right_eq_some] at hn
    all_goals exact .inl (Option.some.inj hn.2).symm

/-- A name lies in its text. -/
theorem nameLength_le (m : NameMode) (x : Text) : nameLength m x ≤ x.length := by
  induction x generalizing m with
  | nil => cases m <;> simp [nameLength]
  | cons g x ih =>
    rw [nameLength_cons, List.length_cons]
    cases m.next? g with
    | none => exact Nat.zero_le _
    | some m' => exact Nat.le_trans (Nat.le_of_eq (Nat.add_comm 1 _)) (Nat.succ_le_succ (ih m'))

/-- An identifier ends at a seam, unless an escape is open there. The glyphs of the name are
read again, and what is read behind them is the glyph at which it stopped before, or the seam.
At the end of the text it has to be known that no escape is open, for an escape would take the
seam (`h`). -/
theorem nameLength_behind (hb : b ∈ seams)
    (h : nameLength .plain x = x.length → ∀ g ∈ x, g.is '\\' = false) :
    nameLength .plain (x ++ u.behind b) = nameLength .plain x := by
  have hstops : continues (.char b) = false := by
    have key : ∀ b ∈ seams, continues (.char b) = false := List.all_iff_forall_prop.1 (by decide)
    exact key b hb
  obtain ⟨m, hm, hz⟩ := read_take_nameLength .plain x
  have hle := nameLength_le .plain x
  -- The text is cut behind the name.
  have hsplit : x ++ u.behind b = x.take (nameLength .plain x) ++
      (x.drop (nameLength .plain x) ++ u.behind b) := by
    rw [← List.append_assoc, List.take_append_drop]
  -- There nothing goes on: at the end of the text because of the seam, and else as before.
  have hstop : nameLength m (x.drop (nameLength .plain x) ++ u.behind b) = 0 := by
    cases hd : x.drop (nameLength .plain x) with
    | nil =>
      have hlen : nameLength .plain x = x.length :=
        Nat.le_antisymm hle (List.drop_eq_nil_iff.1 hd)
      rw [hlen, List.take_length] at hm
      refine nameLength_eq_zero (read_of_plain (h hlen) (.inl rfl) hm) ?_
      rwa [List.nil_append, stopsName_cons]
    | cons g v =>
      rw [hd] at hz
      obtain ⟨hdone, hg⟩ := done_of_nameLength_eq_zero hz
      exact nameLength_eq_zero hdone (stopsName_cons.2 hg)
  rw [hsplit, nameLength_append hm, hstop, List.length_take, Nat.min_eq_left hle, Nat.add_zero]

/-- The test is one on the first glyph. -/
theorem startsWith_eq (x : Text) (a b : Char) :
    startsWith x a b = x.head?.any (fun g => g.toChar == a || g.toChar == b) := by
  cases x <;> rfl

theorem startsWith_behind (hb : b ∈ seams) {c d : Char} (hc : c ∉ seams) (hd : d ∉ seams) :
    startsWith (x ++ u.behind b) c d = startsWith x c d := by
  cases x with
  | nil =>
    have hne : b ≠ c ∧ b ≠ d := ⟨fun h => hc (h ▸ hb), fun h => hd (h ▸ hb)⟩
    simp [startsWith, Glyph.is, hne.1, hne.2]
  | cons g x => rfl

/-- **A number ends at a seam.** Behind a glyph the scan looks for a second point, which is no
part of the number, and behind an exponent for its sign. A seam is neither, and it is no glyph
of a number. The cases are those of the scan. -/
theorem numberLength_behind (hb : b ∈ seams) (hexadecimal : Bool) :
    numberLength hexadecimal (x ++ u.behind b) = numberLength hexadecimal x := by
  have hpoint : ∀ x : Text, startsWith (x ++ u.behind b) '.' '.' = startsWith x '.' '.' :=
    fun _ => startsWith_behind hb (by decide) (by decide)
  have hsign : ∀ x : Text, startsWith (x ++ u.behind b) '+' '-' = startsWith x '+' '-' :=
    fun _ => startsWith_behind hb (by decide) (by decide)
  fun_induction numberLength hexadecimal x with
  | case1 =>
    -- At the end of the number the seam stops the scan.
    have key : ∀ b ∈ seams,
        (!(Text.Identifier.isContinue (Glyph.char b).toChar || (Glyph.char b).is '.')) = true :=
      List.all_iff_forall_prop.1 (by decide)
    rw [List.nil_append, numberLength.eq_def]
    exact if_pos (key b hb)
  | case2 g x hg =>
    rw [List.cons_append, numberLength.eq_def]
    exact if_pos hg
  | case3 g x hg hp =>
    rw [List.cons_append, numberLength.eq_def]
    dsimp only
    rw [if_neg hg, hpoint, if_pos hp]
  | case4 g hg k x hp he ih =>
    rw [List.cons_append, numberLength.eq_def]
    dsimp only
    rw [if_neg hg, hpoint, if_neg hp, hsign, if_pos he, ← ih]
    rfl
  | case5 g hg hp he =>
    rw [Bool.and_eq_true] at he
    cases he.2
  | case6 g x hg hp he ih =>
    rw [List.cons_append, numberLength.eq_def]
    dsimp only
    rw [if_neg hg, hpoint, if_neg hp, hsign, if_neg he, ih]

/-- Whether a number is hexadecimal is a matter of its first two glyphs. -/
theorem isHexadecimal_behind (hb : b ∈ seams) :
    isHexadecimal (x ++ u.behind b) = isHexadecimal x := by
  have key : ∀ b ∈ seams, ∀ p ∈ ["0x", "0X"], Glyph.char b ∉ Text.ofString p :=
    List.all_iff_forall_prop.1 (by decide)
  rw [isHexadecimal, isPrefixOf_behind (key b hb "0x" (by decide)),
    isPrefixOf_behind (key b hb "0X" (by decide))]
  rfl

/-- **A punctuator ends at a seam.** It is the first in the table that is a prefix of the text,
and none contains a seam, so each of them is a prefix or not as before. -/
theorem punctuatorLength_behind (hb : b ∈ seams) :
    punctuatorLength (x ++ u.behind b) = punctuatorLength x := by
  have key : ∀ b ∈ seams, ∀ p ∈ punctuators, Glyph.char b ∉ Text.ofString p :=
    List.all_iff_forall_prop.1 (by decide)
  have hfind : ∀ l : List String, (∀ p ∈ l, Glyph.char b ∉ Text.ofString p) →
      l.find? (fun p => (Text.ofString p).isPrefixOf (x ++ u.behind b))
        = l.find? (fun p => (Text.ofString p).isPrefixOf x) := by
    intro l hl
    induction l with
    | nil => rfl
    | cons p l ih =>
      rw [List.find?_cons, List.find?_cons, isPrefixOf_behind (hl p List.mem_cons_self),
        ih fun q hq => hl q (List.mem_cons_of_mem _ hq)]
  rw [punctuatorLength, hfind _ (key b hb)]
  rfl

/-! ## Literals

A literal ends at its closing mark. If it has been found, what comes behind has not been looked
at, except for the flags of a regular expression. So for strings and templates nothing has to be
known about what comes behind. -/

/-- An extent that is closed with glyphs in front was closed without them. -/
theorem extend_eq_closed {n k : Nat} {e : Extent} (h : e.extend n = .closed k) :
    ∃ j, e = .closed j ∧ k = n + j := by
  cases e with
  | closed j => exact ⟨j, rfl, (Extent.closed.inj h).symm⟩
  | broken j f => cases h

/-- **A string that is closed is told by its own glyphs**: with anything else behind them it is
closed at the same place. Each case takes one glyph or two, and the induction hypothesis is about
the rest; the cases without a closing mark contradict the hypothesis. -/
theorem stringExtent_take_append {quote : Char} {k : Nat} (h : stringExtent quote x = .closed k)
    (u : Text) : stringExtent quote (x.take k ++ u) = .closed k := by
  fun_induction stringExtent quote x generalizing k with
  | case1 => cases h
  | case2 g x hg =>
    cases h
    rw [List.take_succ_cons, List.cons_append, stringExtent.eq_def]
    exact if_pos hg
  | case3 => cases h
  | case4 g hg hn hb k x ih =>
    obtain ⟨j, hj, rfl⟩ := extend_eq_closed h
    rw [Nat.add_comm 2, List.take_succ_cons, List.take_succ_cons, List.cons_append,
      List.cons_append, stringExtent.eq_def]
    dsimp only
    rw [if_neg hg, if_neg hn, if_pos hb, ih hj, Extent.extend, Nat.add_comm]
  | case5 => cases h
  | case6 g x hg hn hb ih =>
    obtain ⟨j, hj, rfl⟩ := extend_eq_closed h
    rw [Nat.add_comm 1, List.take_succ_cons, List.cons_append, stringExtent.eq_def]
    dsimp only
    rw [if_neg hg, if_neg hn, if_neg hb, ih hj, Extent.extend, Nat.add_comm]

/-- So is a template, whatever is open in it on the way. -/
theorem templateExtent_take_append {l : List Open} {k : Nat}
    (h : templateExtent l x = .closed k) (u : Text) :
    templateExtent l (x.take k ++ u) = .closed k := by
  -- Every case but those in which something is left open takes a glyph or two and goes on.
  fun_induction templateExtent l x generalizing k u with
  | case1 => simpa only [templateExtent] using h
  | case2 | case3 | case4 | case7 | case10 | case20 | case22 => cases h
  | case9 outer g hq hb hd k x hk ih =>
    -- The only case in which the glyph behind is looked at and left where it is.
    obtain ⟨j, hj, rfl⟩ := extend_eq_closed h
    have hrest := ih hj
    cases j with
    | zero => cases hrest []
    | succ j =>
      rw [Nat.add_comm 1, List.take_succ_cons, List.take_succ_cons, List.cons_append,
        List.cons_append, templateExtent.eq_def]
      rw [List.take_succ_cons] at hrest
      simp_all [Extent.extend, Nat.add_comm]
  | _ =>
    obtain ⟨j, hj, rfl⟩ := extend_eq_closed h
    rw [templateExtent.eq_def]
    simp_all [Extent.extend, Nat.add_comm]

/-- A text with something behind it, cut inside the text. -/
theorem append_eq_take_append (k : Nat) (x u : Text) : x ++ u = x.take k ++ (x.drop k ++ u) := by
  rw [← List.append_assoc, List.take_append_drop]

/-- The flags behind a regular expression are the glyphs that may be in an identifier, and a
seam may not. -/
theorem flagLength_behind (hb : b ∈ seams) : flagLength (x ++ u.behind b) = flagLength x := by
  have key : ∀ b ∈ seams, ¬Text.Identifier.isContinue (Glyph.char b).toChar = true :=
    List.all_iff_forall_prop.1 (by decide)
  unfold flagLength
  induction x with
  | nil =>
    rw [List.nil_append, Text.behind,
      List.takeWhile_cons_of_neg
        (p := fun g : Glyph => Text.Identifier.isContinue g.toChar) (key b hb),
      List.takeWhile_nil]
  | cons g x ih =>
    rw [List.cons_append, List.takeWhile_cons, List.takeWhile_cons]
    split
    · rw [List.length_cons, List.length_cons, ih]
    · rfl

/-- A regular expression with its flags ends at a seam. -/
theorem regexExtent_behind (hb : b ∈ seams) {inClass : Bool} {k : Nat}
    (h : regexExtent inClass x = .closed k) :
    regexExtent inClass (x ++ u.behind b) = .closed k := by
  fun_induction regexExtent inClass x generalizing k with
  | case1 | case2 | case4 => cases h
  | case7 inClass g x _ _ _ _ hend =>
    rw [List.cons_append, regexExtent.eq_def]
    simp_all [flagLength_behind hb]
  | _ =>
    obtain ⟨j, hj, rfl⟩ := extend_eq_closed h
    rw [List.cons_append, regexExtent.eq_def]
    simp_all [Extent.extend]

/-! ## Lexemes lie inside their text

Each scan takes glyphs that are there. A literal that is left open is excluded, since its extent
is a matter of the fault. -/

theorem numberLength_le (hexadecimal : Bool) (x : Text) :
    numberLength hexadecimal x ≤ x.length := by
  fun_induction numberLength hexadecimal x with
  | case4 g _ k x _ _ ih => simp only [List.length_cons]; omega
  | _ => simp only [List.length_cons, List.length_nil]; omega

/-- The glyphs of a number go on with identifiers, or they are points or signs. -/
theorem all_take_numberLength {f : Char → Bool} (hf : ∀ {c}, isContinue c = true → f c = true)
    (hmarks : (f '.' && f '+' && f '-') = true) (hexadecimal : Bool) (x : Text) :
    (x.take (numberLength hexadecimal x)).all (fun g => f g.toChar) = true := by
  rw [Bool.and_eq_true, Bool.and_eq_true] at hmarks
  have hstep {g : Glyph} (hg : ¬(!(isContinue g.toChar || g.is '.')) = true) :
      f g.toChar = true := by
    rw [Bool.not_eq_true', Bool.not_eq_false, Bool.or_eq_true, Glyph.is, beq_iff_eq] at hg
    exact hg.elim hf fun hc => hc ▸ hmarks.1.1
  fun_induction numberLength hexadecimal x with
  | case1 | case2 | case3 => rfl
  | case4 g hg k x hp he ih =>
    rw [Bool.and_eq_true, startsWith, Bool.or_eq_true] at he
    have hk : f k.toChar = true :=
      he.2.elim (fun h => beq_iff_eq.1 h ▸ hmarks.1.2) (fun h => beq_iff_eq.1 h ▸ hmarks.2)
    rw [Nat.add_comm, List.take_succ_cons, List.take_succ_cons, List.all_cons,
      List.all_cons, hstep hg, hk, ih]
    rfl
  | case5 g hg hp he =>
    rw [Bool.and_eq_true] at he
    cases he.2
  | case6 g x hg hp he ih =>
    rw [Nat.add_comm, List.take_succ_cons, List.all_cons, hstep hg, ih]
    rfl

/-- A string lies in its text. -/
theorem stringExtent_le {quote : Char} {k : Nat} (h : stringExtent quote x = .closed k) :
    k ≤ x.length := by
  fun_induction stringExtent quote x generalizing k with
  | case1 | case3 | case5 => cases h
  | case2 => cases h; simp
  | _ =>
    obtain ⟨j, hj, rfl⟩ := extend_eq_closed h
    rename_i ih
    have hle := ih hj
    simp only [List.length_cons]
    omega

/-- A template lies in its text. -/
theorem templateExtent_le {l : List Open} {k : Nat} (h : templateExtent l x = .closed k) :
    k ≤ x.length := by
  fun_induction templateExtent l x generalizing k with
  | case1 => cases h; exact Nat.zero_le _
  | case2 | case3 | case4 | case7 | case10 | case20 | case22 => cases h
  | _ =>
    obtain ⟨j, hj, rfl⟩ := extend_eq_closed h
    rename_i ih
    have hle := ih hj
    simp only [List.length_cons] at hle ⊢
    omega

/-- A regular expression lies in its text, flags included. -/
theorem regexExtent_le {inClass : Bool} {k : Nat} (h : regexExtent inClass x = .closed k) :
    k ≤ x.length := by
  fun_induction regexExtent inClass x generalizing k with
  | case1 | case2 | case4 => cases h
  | case7 =>
    cases h
    rw [List.length_cons, Nat.add_comm]
    exact Nat.succ_le_succ (List.takeWhile_sublist _).length_le
  | _ =>
    obtain ⟨j, hj, rfl⟩ := extend_eq_closed h
    rename_i ih
    have hle := ih hj
    simp only [List.length_cons]
    omega

/-- A punctuator is a prefix of its text; a glyph that starts none is taken alone. -/
theorem punctuatorLength_le (g : Glyph) (x : Text) :
    punctuatorLength (g :: x) ≤ (g :: x).length := by
  unfold punctuatorLength
  split
  · rename_i p h
    have hp := List.find?_some h
    have hle := (List.isPrefixOf_iff_prefix.1 hp).length_le
    rwa [Text.ofString, List.length_map, String.length_toList] at hle
  · exact Nat.succ_le_succ (Nat.zero_le _)

/-- The opening mark is counted, so a literal is one glyph longer than what was scanned behind
the mark. -/
theorem delimited_length_le {kind : Token.Kind} {e : Extent} {n : Nat}
    (hf : (delimited kind e).fault = none) (h : ∀ {k}, e = .closed k → k ≤ n) :
    (delimited kind e).length ≤ n + 1 := by
  cases e with
  | closed k =>
    have hle := h rfl
    show 1 + k ≤ n + 1
    omega
  | broken k f => cases hf

/-- A lexeme that ends is not longer than the text it starts. -/
theorem first_length_le {prev : Option Token} {g : Glyph} (hf : (first prev g x).fault = none) :
    (first prev g x).length ≤ (g :: x).length := by
  revert hf
  unfold first
  split
  · exact fun _ => nameLength_le _ _
  split
  · exact fun _ => Nat.add_comm 1 _ ▸ Nat.succ_le_succ (nameLength_le _ _)
  split
  · exact fun _ => numberLength_le _ _
  split
  · exact fun hf => delimited_length_le hf stringExtent_le
  split
  · exact fun hf => delimited_length_le hf templateExtent_le
  split
  · exact fun hf => delimited_length_le hf regexExtent_le
  · exact fun _ => punctuatorLength_le g x

/-! ## Lexemes

Which scan reads a lexeme is decided by its first glyph, and for a point by the glyph behind it,
which a seam does not change. -/

/-- Two literals are the same if the second is closed where the first is. -/
theorem delimited_eq_of_fault {kind : Token.Kind} {e e' : Extent}
    (hf : (delimited kind e).fault = none) (h : ∀ {k}, e = .closed k → e' = .closed k) :
    delimited kind e' = delimited kind e := by
  cases e with
  | closed k => rw [h rfl]
  | broken k f => cases hf

/-- **A lexeme ends at a seam**, unless it is left open there. The hypothesis `h` concerns names
alone, and names that reach to the end of the text: they must not contain a backslash. The
alternatives are those of the lexer, in the order in which it tries them. -/
theorem first_behind (hb : b ∈ seams) {prev : Option Token} {g : Glyph}
    (hf : (first prev g x).fault = none)
    (h : (first prev g x).length = (g :: x).length → (first prev g x).kind = .ident →
      ∀ k ∈ g :: x, k.is '\\' = false) :
    first prev g (x ++ u.behind b) = first prev g x := by
  have key : ∀ b ∈ seams, Text.Identifier.isStart (Glyph.char b).toChar = false ∧
      (Glyph.char b).toChar.isDigit = false := List.all_iff_forall_prop.1 (by decide)
  -- A glyph behind the first is asked for being a letter or a digit, and a seam is neither.
  have hhead : ∀ f : Glyph → Bool, f (.char b) = false →
      (x ++ u.behind b).head?.any f = x.head?.any f := by
    intro f hn
    cases x with
    | nil => exact hn
    | cons k x => rfl
  revert hf h
  unfold first
  rw [hhead _ (key b hb).1, hhead _ (key b hb).2]
  split
  · intro _ h
    rw [← List.cons_append, nameLength_behind hb fun hlen => h hlen rfl]
  split
  · intro _ h
    rw [nameLength_behind hb fun hlen k hk => h ?_ rfl k (List.mem_cons_of_mem _ hk)]
    rw [whole, hlen, List.length_cons, Nat.add_comm]
  split
  · intro _ _
    rw [← List.cons_append, isHexadecimal_behind hb, numberLength_behind hb]
  split
  · intro hf _
    exact delimited_eq_of_fault hf fun h =>
      append_eq_take_append _ x _ ▸ stringExtent_take_append h _
  split
  · intro hf _
    exact delimited_eq_of_fault hf fun h =>
      append_eq_take_append _ x _ ▸ templateExtent_take_append h _
  split
  · intro hf _
    exact delimited_eq_of_fault hf (regexExtent_behind hb)
  · intro _ _
    rw [← List.cons_append, punctuatorLength_behind hb]

end Lexeme

namespace TokenStream

/-- A stream with tokens in front. -/
def append (front : List Token) (s : TokenStream) : TokenStream := ⟨front ++ s.tokens, s.ending⟩

/-- The last token of a text has no escape that is open at its end. -/
def NotCut (s : TokenStream) : Prop :=
  ∀ t ∈ s.tokens.getLast?, t.kind = .ident → ∀ g ∈ t.text, g.is '\\' = false

instance (s : TokenStream) : Decidable s.NotCut :=
  inferInstanceAs (Decidable (∀ t ∈ s.tokens.getLast?, _))

/-- A token in front makes no difference, unless there is no other. -/
theorem NotCut.of_cons {t : Token} {s : TokenStream} (h : (cons t s).NotCut) : s.NotCut := by
  intro u hu
  refine h u ?_
  show (t :: s.tokens).getLast? = some u
  rw [List.getLast?_cons, hu]
  rfl

/-- The token that starts with the glyph `g` at `start`. -/
def tokenAt (prev : Option Token) (start : Position) (newline : Bool) (g : Glyph) (more : Text) :
    Token :=
  let lexeme := Lexeme.first prev g more
  let text := (g :: more).take lexeme.length
  ⟨lexeme.kind, text, ⟨start, start.after text⟩, newline⟩

section Steps

variable {prev : Option Token} {here : Position} {x u : Text} {b : Char}

/-- A source in which nothing is left open ends in a gap or goes on with a token. These are the
two ways in which `lexFrom` unfolds, and each has its equation below. -/
theorem lexFrom_cases (hf : (lexFrom prev here x).ending.fault = none) :
    (Gap.before x).closed = true ∧ ((x.drop (Gap.before x).length = [] ∧
        (lexFrom prev here x).tokens = []) ∨
      ∃ g more, x.drop (Gap.before x).length = g :: more ∧
      (Lexeme.first prev g more).fault = none) := by
  rw [lexFrom_eq] at hf ⊢
  dsimp only at hf ⊢
  split at hf
  · rename_i hc
    refine ⟨hc, ?_⟩
    rw [if_pos hc]
    cases hd : x.drop (Gap.before x).length with
    | nil => exact .inl ⟨rfl, rfl⟩
    | cons g more =>
      rw [hd] at hf
      dsimp only at hf
      refine .inr ⟨g, more, rfl, ?_⟩
      cases hl : (Lexeme.first prev g more).fault with
      | none => rfl
      | some fault => rw [hl] at hf; cases hf
  · cases hf

/-- A gap and a token are followed by the tokens of the rest. -/
theorem lexFrom_of_token {g : Glyph} {more : Text} (hc : (Gap.before x).closed = true)
    (hd : x.drop (Gap.before x).length = g :: more)
    (hl : (Lexeme.first prev g more).fault = none) :
    lexFrom prev here x =
      let t := tokenAt prev (here.after (x.take (Gap.before x).length))
        (Gap.before x).newline g more
      cons t (lexFrom (some t) t.stop (more.drop ((Lexeme.first prev g more).length - 1))) := by
  rw [lexFrom_eq]
  dsimp only
  rw [if_pos hc, hd]
  dsimp only
  rw [hl]
  rfl

/-- Behind an open comment nothing is lexed. -/
theorem lexFrom_of_open (hc : (Gap.before x).closed = false) :
    lexFrom prev here x =
      atEnd (here.after (x.take (Gap.before x).length))
      (Gap.before x).newline (some .comment) := by
  rw [lexFrom_eq]
  dsimp only
  rw [if_neg (Bool.eq_false_iff.1 hc)]

/-- A gap that reaches to the end of a text has no token behind it. -/
theorem lexFrom_of_gap (hc : (Gap.before x).closed = true)
    (hd : x.drop (Gap.before x).length = []) :
    lexFrom prev here x = atEnd (here.after (x.take (Gap.before x).length))
      (Gap.before x).newline none := by
  rw [lexFrom_eq]
  dsimp only
  rw [if_pos hc, hd]

/-- Behind an open literal nothing is lexed. -/
theorem lexFrom_of_fault {g : Glyph} {more : Text} {fault : LexicalFault}
    (hc : (Gap.before x).closed = true)
    (hd : x.drop (Gap.before x).length = g :: more)
    (hl : (Lexeme.first prev g more).fault = some fault) :
    lexFrom prev here x =
      ⟨[],
        ⟨tokenAt prev (here.after (x.take (Gap.before x).length)) (Gap.before x).newline g more,
          some fault⟩⟩ := by
  rw [lexFrom_eq]
  dsimp only
  rw [if_pos hc, hd]
  dsimp only
  rw [hl]
  rfl

/-- A token and what comes behind it is what comes behind the gap before it. A lexeme is never
empty, so its length can be counted down by one for the first glyph. -/
theorem text_tokenAt_append {start : Position} {newline : Bool} {g : Glyph} {more : Text} :
    (tokenAt prev start newline g more).text ++ more.drop ((Lexeme.first prev g more).length - 1)
      = g :: more := by
  have hpos := Lexeme.first_length_pos prev g more
  obtain ⟨n, hn⟩ := Nat.exists_eq_add_one.2 hpos
  show (g :: more).take (Lexeme.first prev g more).length ++ _ = _
  rw [hn, Nat.add_sub_cancel, List.take_succ_cons, List.cons_append, List.take_append_drop]

/-- A text is cut into the gap at its beginning, the first token and the rest. -/
theorem take_append_tokenAt {start : Position} {newline : Bool} {g : Glyph} {more : Text}
    (hd : x.drop (Gap.before x).length = g :: more) :
    x.take (Gap.before x).length ++ (tokenAt prev start newline g more).text ++
      more.drop ((Lexeme.first prev g more).length - 1) = x := by
  rw [List.append_assoc, text_tokenAt_append, ← hd, List.take_append_drop]

/-- The first token stops behind its text. -/
theorem stop_tokenAt {gap : Text} {newline : Bool} {g : Glyph} {more : Text} :
    (tokenAt prev (here.after gap) newline g more).stop =
      here.after (gap ++ (tokenAt prev (here.after gap) newline g more).text) := by
  rw [Position.after_append]
  rfl

/-- A token in front of a seam is read there as well. If the token reaches to the end of the
text it is the last one, and then `NotCut` says that no escape is open in it. -/
theorem first_behind_of_notCut (hb : b ∈ seams) {g : Glyph} {more : Text}
    (hc : (Gap.before x).closed = true)
    (hd : x.drop (Gap.before x).length = g :: more)
    (hl : (Lexeme.first prev g more).fault = none)
    (hcut : (lexFrom prev here x).NotCut) :
    Lexeme.first prev g (more ++ u.behind b) = Lexeme.first prev g more := by
  refine Lexeme.first_behind hb hl fun hall hk => ?_
  have hnil : more.drop ((Lexeme.first prev g more).length - 1) = [] := by
    rw [hall, List.length_cons, Nat.add_sub_cancel, List.drop_length]
  rw [lexFrom_of_token hc hd hl, hnil] at hcut
  have hplain := hcut _ (by dsimp only [cons]; rw [lexFrom_nil]; rfl) hk
  rwa [tokenAt, hall, List.take_length] at hplain

/-- The first token is the same if a seam comes behind the text. The gap before it ends inside
of the text, the token itself ends at the seam at the latest, and the rest of the text is
followed by the seam again. -/
theorem lexFrom_of_token_behind (hb : b ∈ seams) {g : Glyph} {more : Text}
    (hc : (Gap.before x).closed = true)
    (hd : x.drop (Gap.before x).length = g :: more)
    (hl : (Lexeme.first prev g more).fault = none)
    (hcut : (lexFrom prev here x).NotCut) :
    lexFrom prev here (x ++ u.behind b) =
      let t := tokenAt prev (here.after (x.take (Gap.before x).length))
        (Gap.before x).newline g more
      cons t (lexFrom (some t) t.stop
        (more.drop ((Lexeme.first prev g more).length - 1) ++ u.behind b)) := by
  have hlt : (Gap.before x).length < x.length := by
    have hlen := congrArg List.length hd
    rw [List.length_drop, List.length_cons] at hlen
    omega
  -- The gap before the token.
  have hgap : Gap.before (x ++ u.behind b) = Gap.before x := Gap.scan_behind_of_lt hb hlt
  have hfirst := first_behind_of_notCut (u := u) hb hc hd hl hcut
  have hle := Lexeme.first_length_le hl
  have hd' : (x ++ u.behind b).drop (Gap.before (x ++ u.behind b)).length
      = g :: (more ++ u.behind b) := by
    rw [hgap, List.drop_append_of_le_length (Nat.le_of_lt hlt), hd, List.cons_append]
  -- The token itself.
  have ht : ∀ start newline, tokenAt prev start newline g (more ++ u.behind b)
      = tokenAt prev start newline g more := by
    intro start newline
    rw [tokenAt, hfirst, ← List.cons_append, List.take_append_of_le_length hle]
    rfl
  have hrest : (Lexeme.first prev g more).length - 1 ≤ more.length := by
    rw [List.length_cons] at hle
    omega
  rw [lexFrom_of_token (hgap ▸ hc) hd' (hfirst ▸ hl), hfirst, hgap,
    List.take_append_of_le_length (Nat.le_of_lt hlt), ht, List.drop_append_of_le_length hrest]

end Steps

/-- No comment stands behind the last token of a text, which is the end of the given bytes,
unless the seam behind it ends the line. A comment is told by a slash among the bytes of a gap,
where it cannot stand for anything else. -/
def Meets (s : TokenStream) (b : Char) (bytes : List UInt8) (here : Nat) : Prop :=
  b = '\n' ∨ ∀ gap ∈ gaps bytes here s.all, 47 ∉ gap

/-- A text without a slash among its bytes has none among its glyphs. The byte of a slash occurs
in the encoding of no other glyph. -/
theorem is_slash_of_encode {x : Text} (h : 47 ∉ x.encode) : ∀ g ∈ x, g.is '/' = false := by
  intro g hg
  cases hs : g.is '/' with
  | false => rfl
  | true =>
    obtain rfl := Glyph.eq_char_of_is hs (by decide)
    exact absurd (List.mem_flatMap.2 ⟨_, hg, by decide⟩) h

/-- **A text is lexed in front of a seam as it is lexed alone**, and what comes behind is lexed
behind its last token. The text stands behind the bytes `front`. The induction is on the length
of the text. If only a gap is left, it goes on behind the seam, and so does the knowledge
whether a line ends in it. Else the first token is the one that is lexed alone, and the rest of
the text is shorter. What comes behind the seam is lexed from a place, behind a token and with a
line end to be remembered; the first two are those at which the text ends, and the third is
handed over to the first token there (`mark`). -/
theorem lexFrom_behind (hb : b ∈ seams) {front : List UInt8} (prev : Option Token)
    (here : Position) (x u : Text)
    (hhere : here.offset = front.length) (hf : (lexFrom prev here x).ending.fault = none)
    (hcut : (lexFrom prev here x).NotCut)
    (hend : (lexFrom prev here x).Meets b (front ++ x.encode) here.offset) :
    lexFrom prev here (x ++ u.behind b) =
      append (lexFrom prev here x).tokens
        ((lexFrom ((lexFrom prev here x).tokens.getLast?.or prev)
          (here.after (x ++ [Glyph.char b]))
          u).mark ((lexFrom prev here x).ending.token.newlineBefore || b == '\n')) := by
  induction hn : x.length using Nat.strongRecOn generalizing front prev here x with
  | _ n ih =>
    obtain ⟨hc, ⟨hd, htokens⟩ | ⟨g, more, hd, hl⟩⟩ := lexFrom_cases hf
    · -- The gap at the end goes on behind the seam.
      have hle : (Gap.before x).length = x.length :=
        Nat.le_antisymm (Gap.length_scan_le _ x) (List.drop_eq_nil_iff.1 hd)
      have hend' : (lexFrom prev here x) = atEnd (here.after x) (Gap.before x).newline none := by
        rw [lexFrom_of_gap hc hd, hle, List.take_length]
      have hmeets : Gap.Mode.blank.Meets b x := by
        refine hend.imp_right fun h => ⟨rfl, is_slash_of_encode ?_⟩
        have hgap := h _ (by rw [hend']; exact List.mem_cons_self)
        have hgap' : 47 ∉ (front ++ x.encode).extract here.offset (here.after x).offset := hgap
        have hslice := extract_middle front x.encode []
        rw [List.append_nil] at hslice
        rwa [offset_after_append hhere x, hhere, List.length_append, hslice] at hgap'
      have hsplit : x ++ u.behind b = (x ++ [Glyph.char b]) ++ u := by
        rw [List.append_assoc, List.singleton_append]
      -- The two gaps are one, and a line ends in it if one ends in either.
      have hgap : Gap.before ((x ++ [Glyph.char b]) ++ u)
          = (Gap.before u).extend (x ++ [Glyph.char b]).length
              ((Gap.before x).newline || b == '\n') := by
        rw [← hsplit, List.length_append]
        exact Gap.scan_behind_of_eq hb hmeets hle hc
      rw [htokens, hsplit, lexFrom_extend _ hgap, hend']
      rfl
    · rw [lexFrom_of_token_behind hb hc hd hl hcut]
      rw [lexFrom_of_token hc hd hl] at hf hcut hend ⊢
      dsimp only at hf hcut hend ⊢
      generalize htoken : tokenAt prev (here.after (x.take (Gap.before x).length))
        (Gap.before x).newline g more = t at hf hcut hend ⊢
      generalize hrest : more.drop ((Lexeme.first prev g more).length - 1)
        = rest at hf hcut hend ⊢
      -- The gap, the token and the rest make up the text, so the seam stands at the same place.
      have hx : x.take (Gap.before x).length ++ t.text ++ rest = x := by
        rw [← htoken, ← hrest, take_append_tokenAt hd]
      have hspan : t.stop = here.after (x.take (Gap.before x).length ++ t.text) := by
        rw [← htoken, stop_tokenAt]
      have hstop : t.stop.after (rest ++ [Glyph.char b]) = here.after (x ++ [Glyph.char b]) := by
        rw [hspan, ← Position.after_append, ← List.append_assoc, hx]
      have hlt : rest.length < n := by
        rw [← hrest, ← hn]
        exact length_drop_lt hd _
      -- The gaps behind the token are gaps of the whole.
      have hend' : (lexFrom (some t) t.stop rest).Meets b
          ((front ++ Text.encode (x.take (Gap.before x).length ++ t.text)) ++ Text.encode rest)
          t.stop.offset := by
        rw [List.append_assoc, ← Text.encode_append, hx]
        exact hend.imp_right fun h gap hgap => h gap (List.mem_cons_of_mem _ hgap)
      rw [ih rest.length hlt (some t) t.stop rest
        (hspan ▸ offset_after_append hhere _) hf hcut.of_cons
        hend' rfl, hstop]
      -- The last token of the whole is the last one behind the first, or the first itself.
      have hlast : (cons t (lexFrom (some t) t.stop rest)).tokens.getLast?.or prev
          = (lexFrom (some t) t.stop rest).tokens.getLast?.or (some t) := by
        show (t :: _).getLast?.or prev = _
        rw [List.getLast?_cons]
        cases (lexFrom (some t) t.stop rest).tokens.getLast? <;> rfl
      rw [hlast]
      rfl

/-- At the end of a line comments do not matter. -/
theorem lexFrom_behindLine (prev : Option Token) (here : Position) (x u : Text)
    (hf : (lexFrom prev here x).ending.fault = none) (hcut : (lexFrom prev here x).NotCut) :
    lexFrom prev here (x ++ u.behindLine) =
      append (lexFrom prev here x).tokens
        ((lexFrom ((lexFrom prev here x).tokens.getLast?.or prev)
          (here.after (x ++ [Glyph.char '\n']))
          u).mark true) := by
  rw [lexFrom_behind (by decide) prev here x u
    (List.length_replicate (a := (0 : UInt8))).symm hf hcut
    (.inl rfl), beq_self_eq_true, Bool.or_true]

end TokenStream

end Exemplar
