import Exemplar.Proofs.Token.Seams
import Exemplar.Proofs.Token.Nesting
import Mathlib.Tactic.SplitIfs

/-!
# Two ways to end a line

A line ends with a line feed, or with a carriage return and a line feed. Both are read alike
where a line may end: in a gap, in a comment and in the text of a template. The exception is an
escape, which takes one glyph, whatever it is. If it takes the line feed of a line that ends in
one glyph, it takes the carriage return of one that ends in two, and the line feed stays behind:
a string or a regular expression is then left open, and an identifier ends elsewhere.

So a source in which no escape takes the end of a line has the same tokens with either. Where a
literal is left open at the end of a line, its text goes on to the carriage return.

`Text.crlf` puts a carriage return in front of every line feed. A scan of the lexer that takes
`n` glyphs of a text then takes the glyphs that these have become, whose number is that of `crlf
(x.take n)`. This is how all lemmas about lengths are stated, and it is carried along with what
is scanned: first for gaps, then for the extents of literals (`Extent.Widens`), for lexemes
(`Lexeme.Widens`), and at last for streams of tokens (`TokenStream.Widens`).

An escape in a template is no exception. A backslash in the text of a template takes a carriage
return and the line feed behind it is taken as text, so the template goes on. Only in a string
inside of a substitution this is not so, and for these `stringEscapesLine` follows the scan.
-/

namespace Exemplar

open Exemplar.Text.Identifier

namespace Text

variable {g : Glyph} {s t x : Text}

/-- A text with a carriage return in front of every line feed. -/
def crlf (t : Text) : Text := t.flatMap fun g => if g.is '\n' then [.char '\r', g] else [g]

/-- Whether a line feed stands in a text. -/
def hasLine (t : Text) : Bool := t.any fun g => g.is '\n'

@[simp] theorem crlf_nil : crlf [] = [] := rfl

/-- A line feed gets a carriage return in front. -/
theorem crlf_cons_of_line (hg : g.is '\n' = true) (t : Text) :
    crlf (g :: t) = .char '\r' :: g :: crlf t := by
  simp [crlf, hg]

/-- Any other glyph stays as it is. -/
theorem crlf_cons (hg : g.is '\n' = false) (t : Text) : crlf (g :: t) = g :: crlf t := by
  simp [crlf, hg]

@[simp] theorem crlf_append (s t : Text) : crlf (s ++ t) = crlf s ++ crlf t := by
  simp [crlf]

@[simp] theorem hasLine_cons : hasLine (g :: t) = (g.is '\n' || hasLine t) := rfl

/-- A text of glyphs other than line feeds has none. -/
theorem hasLine_of_all (h : t.all (fun g => g.toChar != '\n') = true) : hasLine t = false := by
  rw [List.all_eq_not_any_not, Bool.not_eq_true'] at h
  simpa only [hasLine, Glyph.is, bne, Bool.not_not] using h

/-- A text without line feeds stays as it is. -/
theorem crlf_of_hasLine (h : hasLine t = false) : crlf t = t := by
  induction t with
  | nil => rfl
  | cons g t ih =>
    rw [hasLine_cons, Bool.or_eq_false_iff] at h
    rw [crlf_cons h.1, ih h.2]

/-- A text is cut where it was, with either end of a line. -/
theorem take_crlf (n : Nat) (x : Text) :
    (crlf x).take (crlf (x.take n)).length = crlf (x.take n) := by
  conv => lhs; rw [← List.take_append_drop n x, crlf_append]
  rw [List.take_append_drop, List.take_left]

/-- And the rest of it is the rest of the text. -/
theorem drop_crlf (n : Nat) (x : Text) :
    (crlf x).drop (crlf (x.take n)).length = crlf (x.drop n) := by
  conv => lhs; rw [← List.take_append_drop n x, crlf_append]
  rw [List.take_append_drop, List.drop_left]

/-- The line feeds are still there. -/
theorem hasLine_crlf (t : Text) : hasLine (crlf t) = hasLine t := by
  induction t with
  | nil => rfl
  | cons g t ih =>
    cases hg : g.is '\n' with
    | false => rw [crlf_cons hg, hasLine_cons, hasLine_cons, ih]
    | true => simp [crlf_cons_of_line hg, hg]

/-- What a text without a line feed is, it is with either end of a line. -/
theorem crlf_eq_iff (ht : hasLine t = false) : crlf s = t ↔ s = t := by
  refine ⟨fun h => ?_, fun h => by rw [h, crlf_of_hasLine ht]⟩
  rw [← h, hasLine_crlf] at ht
  rw [← h, crlf_of_hasLine ht]

/-- What neither glyph of the end of a line passes, is passed at the beginning of a text with
either. -/
theorem head?_any_crlf {f : Char → Bool} (hf : f '\n' = false ∧ f '\r' = false) (x : Text) :
    (crlf x).head?.any (fun g => f g.toChar) = x.head?.any (fun g => f g.toChar) := by
  cases x with
  | nil => rfl
  | cons g x =>
    cases hg : g.is '\n' with
    | false => rw [crlf_cons hg]; rfl
    | true =>
      rw [crlf_cons_of_line hg]
      rw [Glyph.is, beq_iff_eq] at hg
      exact hf.2.trans (by rw [List.head?_cons, Option.any_some, hg, hf.1])

end Text

open Text

namespace Gap

/-- Neither glyph of the end of a line starts a comment or ends one. -/
theorem startsWith_crlf {c : Char} (hc : c ≠ '\n' ∧ c ≠ '\r') (x : Text) :
    startsWith (crlf x) c = startsWith x c :=
  head?_any_crlf (f := (· == c)) ⟨beq_false_of_ne hc.1.symm, beq_false_of_ne hc.2.symm⟩ x

variable {m m' : Mode} {g : Glyph} {x : Text} {newline : Bool}

/-- A step of the scan sees no difference behind the glyph that it takes. -/
theorem next?_crlf (m : Mode) (g : Glyph) (x : Text) : m.next? g (crlf x) = m.next? g x := by
  cases m with
  | blank => simp only [Mode.next?, startsWith_crlf (by decide : '/' ≠ '\n' ∧ '/' ≠ '\r'),
      startsWith_crlf (by decide : '*' ≠ '\n' ∧ '*' ≠ '\r')]
  | block => simp only [Mode.next?, startsWith_crlf (by decide : '/' ≠ '\n' ∧ '/' ≠ '\r')]
  | line | opening | closing => rfl

/-- Between the two glyphs that open or close a block comment the second of them comes. The scan
only comes to these modes when it has seen that glyph, so a line feed cannot stand there. -/
def Mode.Fits : Mode → Text → Prop
  | .opening, x => startsWith x '*' = true
  | .closing, x => startsWith x '/' = true
  | _, _ => True

/-- A step leads to a mode that fits, since it has looked at the glyph behind. -/
theorem Mode.Fits.next (hn : m.next? g x = some (m', newline)) : m'.Fits x := by
  cases m <;> simp only [Mode.next?] at hn
  · split at hn
    · cases hn; trivial
    split at hn
    · cases hn; trivial
    split at hn
    · cases hn; trivial
    split at hn
    · rename_i h
      cases hn
      exact (Bool.and_eq_true _ _ ▸ h).2
    · cases hn
  · split at hn <;> cases hn <;> trivial
  · cases hn; trivial
  · split at hn
    · rename_i h
      cases hn
      exact (Bool.and_eq_true _ _ ▸ h).2
    · cases hn; trivial
  · cases hn; trivial

/-- Where a line ends, the scan stays where it is behind the carriage return. So the carriage
return makes no difference: it is a blank, or a glyph of the comment, and whether a line ends in
the gap is known from the line feed. -/
theorem Mode.Fits.next_line (hm : m.Fits (g :: x)) (hg : g.is '\n' = true) (u : Text) :
    ∃ m' newline, m.next? g x = some (m', true) ∧ m.next? g u = some (m', true) ∧
      m.next? (.char '\r') (g :: u) = some (m, newline) := by
  have hc := hg
  rw [Glyph.is, beq_iff_eq] at hc
  cases m with
  | blank =>
    exact ⟨.blank, true, by simp [next?, hc, isLineEnd], by simp [next?, hc, isLineEnd], rfl⟩
  | line => exact ⟨.blank, false, by simp [next?, hg], by simp [next?, hg], rfl⟩
  | block =>
    exact ⟨.block, false, by simp [next?, Glyph.is, hc], by simp [next?, Glyph.is, hc], rfl⟩
  | opening | closing =>
    have hstart : g.toChar == _ := hm
    rw [hc] at hstart
    cases hstart

/-- **A gap is the same with either end of a line.** -/
theorem scan_crlf (hm : m.Fits x) :
    scan m (crlf x)
      = ⟨(crlf (x.take (scan m x).length)).length, (scan m x).newline, (scan m x).closed⟩ := by
  induction x generalizing m with
  | nil => rfl
  | cons g x ih =>
    cases hg : g.is '\n' with
    -- A line feed: the carriage return is taken, and then the line feed as in the other text.
    | true =>
      obtain ⟨m', newline, hn, hn', hr⟩ := hm.next_line hg (crlf x)
      rw [crlf_cons_of_line hg, scan, hr]
      dsimp only
      rw [scan, hn', scan, hn]
      dsimp only [extend]
      rw [ih (.next hn), Nat.add_comm 1 (scan m' x).length,
        List.take_succ_cons, crlf_cons_of_line hg]
      simp only [List.length_cons, Bool.true_or, Bool.or_true, mk.injEq, and_true]
      omega
    -- Any other glyph is taken in both texts, or ends the gap in both.
    | false =>
      rw [crlf_cons hg, scan, next?_crlf, scan]
      cases hn : m.next? g x with
      | none => rfl
      | some r =>
        dsimp only [extend]
        rw [ih (.next hn), Nat.add_comm 1 (scan r.1 x).length, List.take_succ_cons,
          crlf_cons hg, List.length_cons, Nat.add_comm]

/-- **The gap before a token is closed or not with either end of a line**, a line ends in it or
not, and the same comes behind it. -/
theorem before_crlf (x : Text) : (before (crlf x)).closed = (before x).closed ∧
    (before (crlf x)).newline = (before x).newline ∧
    (crlf x).drop (before (crlf x)).length = crlf (x.drop (before x).length) := by
  rw [before, scan_crlf (m := .blank) trivial]
  exact ⟨rfl, rfl, drop_crlf _ x⟩

end Gap

/-! ## Extents

A literal that ends does so at the same mark. One that is left open at the end of the source is
so in both. One that is left open at the end of a line is left open at the line feed, and with
carriage returns at the glyph behind the carriage return. -/

/-- The second extent is that of a text with carriage returns if the first is that of the text.
A literal that is left open at the end of a line is so behind the carriage return. -/
inductive Extent.Widens (x : Text) : Extent → Extent → Prop
  /-- The literal ends. -/
  | closed (n : Nat) : Widens x (.closed n) (.closed (crlf (x.take n)).length)
  /-- The literal is left open. -/
  | broken (n : Nat) (f : LexicalFault) :
      Widens x (.broken n f) (.broken (crlf (x.take n)).length f)
  /-- The literal is left open at the end of a line. -/
  | cut {n : Nat} {f : LexicalFault} {more : Text} (hf : f = .string ∨ f = .regex)
    (hd : x.drop n = .char '\n' :: more) :
    Widens x (.broken n f) (.broken ((crlf (x.take n)).length + 1) f)

/-- Glyphs in front are counted with their carriage returns. -/
theorem Extent.Widens.extend {x : Text} {e e' : Extent} (h : Widens x e e') (front : Text) :
    Widens (front ++ x) (e.extend front.length) (e'.extend (crlf front).length) := by
  have hlen (n : Nat) : (crlf front).length + (crlf (x.take n)).length =
      (crlf ((front ++ x).take (front.length + n))).length := by
    rw [List.take_length_add_append, crlf_append, List.length_append]
  cases h with
  | closed n => rw [Extent.extend, Extent.extend, hlen]; exact .closed _
  | broken n f => rw [Extent.extend, Extent.extend, hlen]; exact .broken _ _
  | cut hf hd =>
    rw [Extent.extend, Extent.extend, ← Nat.add_assoc, hlen]
    exact .cut hf (by rw [List.drop_length_add_append, hd])

/-- One glyph that ends no line is read alike. -/
theorem Extent.Widens.cons {x : Text} {e e' : Extent} {g : Glyph} (h : Widens x e e')
    (hg : g.is '\n' = false) :
    Widens (g :: x) (e.extend 1) (e'.extend 1) := by
  have hwide := h.extend [g]
  rwa [crlf_cons hg] at hwide

namespace Lexeme

variable {x : Text} {g : Glyph}

/-- Whether a string escapes a line feed, in a scan that starts with the given things open. The
scan is that of templates, which keeps what is open in a list. Only a string takes the glyph
behind a backslash for good. -/
def stringEscapesLine : List Open → Text → Bool
  | [], _ => false
  | _ :: _, [] => false
  | o :: outer, g :: rest =>
    match o.step outer g rest with
    | .take more l =>
      (o.isString && hasLine (rest.take more)) || stringEscapesLine l (rest.drop more)
    | .stop _ _ => false
termination_by _ x => x.length
decreasing_by
  rw [List.length_drop, List.length_cons]
  omega

/-- A step sees no difference between the two ends of a line. It asks whether there is a glyph
behind, and whether that is an opening brace. -/
theorem Open.step_crlf (o : Open) (outer : List Open) (g : Glyph) (rest : Text) :
    o.step outer g (crlf rest) = o.step outer g rest := by
  have hempty : (crlf rest).isEmpty = rest.isEmpty := by
    cases rest with
    | nil => rfl
    | cons h rest => cases hh : h.is '\n' <;> simp [crlf, hh]
  have hbrace : (crlf rest).head?.any (·.is '\x7b') = rest.head?.any (·.is '\x7b') :=
    head?_any_crlf (f := (· == '\x7b')) (by decide) rest
  cases o with
  | template => rw [step, step, hempty, hbrace]
  | substitution braces => rfl
  | string quote => rw [step, step, hempty]

/-- One step of the scan. -/
theorem stringEscapesLine_cons (o : Open) (outer : List Open) (g : Glyph) (rest : Text) :
    stringEscapesLine (o :: outer) (g :: rest) =
      match o.step outer g rest with
      | .take more l => (o.isString && hasLine (rest.take more))
      || stringEscapesLine l (rest.drop more)
      | .stop _ _ => false := by
  rw [stringEscapesLine]

/-- A template that goes on is longer than what was scanned of it. -/
theorem length_templateExtent_pos (outer : List Open) (g : Glyph) (rest : Text) :
    0 < (templateExtent (.template :: outer) (g :: rest)).length := by
  rw [templateExtent_step]
  cases hs : Open.step .template outer g rest with
  | take more l =>
    rw [Step.extent, Extent.length_extend]
    omega
  | stop n fault =>
    simp only [Open.step] at hs
    split_ifs at hs <;> cases hs <;> exact Nat.one_pos

/-- Only what the scan reads matters. So whether a token escapes a line feed is a matter of its
text alone. The induction follows the scan, and a step that looks one glyph ahead finds that
glyph in the text of the token. -/
theorem stringEscapesLine_take (l : List Open) (x : Text) :
    stringEscapesLine l (x.take (templateExtent l x).length) = stringEscapesLine l x := by
  induction hn : x.length using Nat.strongRecOn generalizing l x with
  | _ n ih =>
    rcases l with _ | ⟨o, outer⟩
    · rw [stringEscapesLine, stringEscapesLine]
    rcases x with _ | ⟨g, rest⟩
    · rw [List.take_nil]
    rw [templateExtent_step, stringEscapesLine_cons]
    cases hs : o.step outer g rest with
    | stop k fault =>
      rcases Open.stop_of_step hs with rfl | ⟨rfl, rfl⟩
      · rw [Step.extent, Extent.length, List.take_zero, stringEscapesLine]
      · rw [Step.extent, Extent.length, List.take_succ_cons, List.take_nil,
          stringEscapesLine_cons, hs]
    | take more l =>
      have hlt : (rest.drop more).length < n := by
        rw [List.length_cons] at hn
        rw [List.length_drop]
        omega
      have hrest := ih _ hlt l _ rfl
      rw [Step.extent, Extent.length_extend]
      generalize hk : (templateExtent l (rest.drop more)).length = k at hrest
      -- The step is the same in front of the shortened text, since it sees one glyph of it at
      -- most.
      have hstep : o.step outer g (rest.take (more + k)) = .take more l := by
        rcases rest with _ | ⟨h, u⟩
        · rwa [List.take_nil]
        cases hm : more + k with
        | succ m => rw [List.take_succ_cons, Open.step_head o outer g h _ u, hs]
        | zero =>
          obtain ⟨rfl, rfl⟩ := Nat.add_eq_zero_iff.1 hm
          refine (Open.step_of_take_zero hs []).resolve_right fun hl => ?_
          have hpos := length_templateExtent_pos outer h u
          rw [hl, List.drop_zero] at hk
          omega
      rw [Nat.add_assoc, Nat.add_comm 1, List.take_succ_cons, stringEscapesLine_cons, hstep]
      dsimp only
      rw [List.take_take, Nat.min_eq_left (Nat.le_add_right _ _), List.drop_take,
        Nat.add_sub_cancel_left, hrest]

section Template

variable {o : Open} {outer : List Open} {rest : Text}

/-- Neither glyph of the end of a line means anything to the scan outside of strings. -/
theorem marks_of_line (hg : g.is '\n' = true ∨ g.is '\r' = true) :
    ∀ c ∈ marks, g.is c = false := by
  have key : ∀ c ∈ marks, '\n' ≠ c ∧ '\r' ≠ c := List.all_iff_forall_prop.1 (by decide)
  exact fun c hc => hg.elim (is_eq_false · (key c hc).1) (is_eq_false · (key c hc).2)

/-- Outside of strings the scan goes over the end of a line. -/
theorem templateExtent_line (ho : o.isString = false)
    (hg : g.is '\n' = true ∨ g.is '\r' = true) (outer : List Open)
    (rest : Text) : templateExtent (o :: outer) (g :: rest)
      = (templateExtent (o :: outer) rest).extend 1 := by
  rw [templateExtent_step, Open.step_plain ho (marks_of_line hg)]
  rfl

/-- In a string it stops there. That is where a string is left open, with one glyph more if
there is a carriage return in front. -/
theorem templateExtent_string_line {quote : Char}
    (hq : quote = '"' ∨ quote = '\'') (hg : g.is '\n' = true)
    (outer : List Open) (rest : Text) :
    templateExtent (.string quote :: outer) (g :: rest) = .broken 0 .string ∧
      templateExtent (.string quote :: outer) (.char '\r' :: g :: rest) = .broken 1 .string := by
  have hne : '\n' ≠ quote ∧ '\r' ≠ quote := by rcases hq with rfl | rfl <;> decide
  have hstop : templateExtent (.string quote :: outer) (g :: rest) = .broken 0 .string := by
    rw [templateExtent_step, Open.step, is_eq_false hg hne.1, hg]
    rfl
  refine ⟨hstop, ?_⟩
  rw [templateExtent_step, Open.step, is_eq_false (g := .char '\r') rfl hne.2]
  exact congrArg (Extent.extend 1) hstop

/-- The end of a line in front of what is scanned alike. Outside of strings both glyphs are
taken one after the other. In a string the literal is left open, and what comes behind does not
matter. -/
theorem widens_line (hl : ∀ q, Open.string q ∈ o :: outer → q = '"' ∨ q = '\'')
    (hg : g.is '\n' = true)
    (h : o.isString = false →
      (templateExtent (o :: outer) rest).Widens rest (templateExtent (o :: outer) (crlf rest))) :
    (templateExtent (o :: outer) (g :: rest)).Widens (g :: rest)
      (templateExtent (o :: outer) (crlf (g :: rest))) := by
  rw [crlf_cons_of_line hg]
  cases ho : o.isString with
  | true =>
    cases o with
    | template | substitution => cases ho
    | string quote =>
      have hquote := hl quote List.mem_cons_self
      rw [(templateExtent_string_line hquote hg outer _).1,
        (templateExtent_string_line hquote hg outer _).2]
      exact .cut (.inl rfl) (by rw [Glyph.eq_char_of_is hg (by decide)]; rfl)
  | false =>
    rw [templateExtent_line ho (.inl hg), templateExtent_line ho (.inr rfl),
      templateExtent_line ho (.inl hg), Extent.extend_extend]
    have hwide := (h ho).extend [g]
    rwa [crlf_cons_of_line hg] at hwide

/-- A step that takes two glyphs in front of what is scanned alike. If it takes the end of a
line, it takes the carriage return, and the line feed is taken behind it. -/
theorem widens_take {l : List Open} {h : Glyph} (hg : g.is '\n' = false)
    (hs : o.step outer g (h :: rest) = .take 1 l)
    (hline : (o.isString && h.is '\n') = false)
    (hrest : (templateExtent l rest).Widens rest (templateExtent l (crlf rest))) :
    (templateExtent (o :: outer) (g :: h :: rest)).Widens (g :: h :: rest)
      (templateExtent (o :: outer) (crlf (g :: h :: rest))) := by
  rw [crlf_cons hg, templateExtent_step, templateExtent_step, Open.step_crlf, hs]
  have hdrop (g h : Glyph) (u : Text) :
      (Step.take 1 l).extent (h :: u) = (templateExtent l u).extend 2 := rfl
  rw [hdrop g]
  -- Is the second glyph the line feed that a backslash takes?
  cases hh : h.is '\n' with
  | false =>
    rw [crlf_cons hh, hdrop g]
    have hwide := (hrest.cons hh).cons hg
    rwa [Extent.extend_extend, Extent.extend_extend] at hwide
  | true =>
    obtain ⟨-, k, u, hk, hcase⟩ := (Open.take_of_step hs).resolve_left (by decide)
    obtain ⟨rfl, -⟩ := List.cons.inj hk
    obtain ⟨rfl, -⟩ := hcase.resolve_right (by rw [is_eq_false hh (by decide)]; decide)
    rw [hh, Bool.and_true] at hline
    rw [crlf_cons_of_line hh, hdrop g, templateExtent_line hline (.inl hh), Extent.extend_extend]
    have hwide := hrest.extend [g, h]
    rwa [crlf_cons hg, crlf_cons_of_line hh] at hwide

/-- **The scan of a template literal is the same with either end of a line**, if no string in it
escapes one. The induction is on the length of the text, and the cases are those of one step: a
line feed, a step that stops, and one that takes a glyph or two. -/
theorem templateExtent_crlf {l : List Open} (hl : ∀ q, Open.string q ∈ l → q = '"' ∨ q = '\'')
    (he : stringEscapesLine l x = false) :
    (templateExtent l x).Widens x (templateExtent l (crlf x)) := by
  induction hn : x.length using Nat.strongRecOn generalizing l x with
  | _ n ih =>
    rcases l with _ | ⟨o, outer⟩
    · rw [templateExtent, templateExtent]
      exact .closed 0
    rcases x with _ | ⟨g, rest⟩
    · rw [crlf_nil, templateExtent_nil]
      exact .broken 0 _
    rw [stringEscapesLine_cons] at he
    rw [List.length_cons] at hn
    cases hg : g.is '\n' with
    | true =>
      refine widens_line hl hg fun ho => ih rest.length (by omega) hl ?_ rfl
      rw [Open.step_plain ho (marks_of_line (.inl hg))] at he
      exact (Bool.or_eq_false_iff.1 he).2
    | false =>
      cases hs : o.step outer g rest with
      | stop k fault =>
        have hlen : (crlf ((g :: rest).take k)).length = k := by
          rcases Open.stop_of_step hs with rfl | ⟨rfl, rfl⟩
          · rfl
          · rw [List.take_succ_cons, List.take_nil, crlf_cons hg]
            rfl
        have hbroken := Extent.Widens.broken (x := g :: rest) k fault
        rw [hlen] at hbroken
        rwa [crlf_cons hg, templateExtent_step, templateExtent_step, Open.step_crlf, hs]
      | take more l =>
        rw [hs] at he
        obtain ⟨hline, he⟩ := Bool.or_eq_false_iff.1 he
        have hquotes := Open.quote_of_step hs hl
        -- One glyph is taken, or two.
        rcases Open.take_of_step hs with rfl | ⟨rfl, h, u, rfl, -⟩
        · rw [crlf_cons hg, templateExtent_step, templateExtent_step, Open.step_crlf, hs]
          exact (ih rest.length (by omega) hquotes he rfl).cons hg
        · rw [List.length_cons] at hn
          rw [List.take_succ_cons, hasLine_cons] at hline
          refine widens_take hg hs ?_ (ih u.length (by omega) hquotes he rfl)
          simpa [hasLine] using hline

end Template

/-- The flags of a regular expression end before a line does. Neither glyph of the end of a line
may stand among them. -/
theorem flagLength_crlf (x : Text) :
    flagLength (crlf x) = flagLength x ∧ hasLine (x.take (flagLength x)) = false := by
  have key : ∀ c ∈ ['\n', '\r'], isContinue c = false := List.all_iff_forall_prop.1 (by decide)
  unfold flagLength
  induction x with
  | nil => exact ⟨rfl, rfl⟩
  | cons g x ih =>
    by_cases hg : isContinue g.toChar = true
    · have hl : g.is '\n' = false := by
        rw [Glyph.is, beq_eq_false_iff_ne]
        intro hc
        rw [hc, key '\n' (by decide)] at hg
        cases hg
      rw [crlf_cons hl,
        List.takeWhile_cons_of_pos (p := fun g : Glyph => isContinue g.toChar) hg,
        List.takeWhile_cons_of_pos (p := fun g : Glyph => isContinue g.toChar) hg,
          List.length_cons, List.length_cons,
        ih.1, List.take_succ_cons, hasLine_cons, hl, ih.2]
      exact ⟨rfl, rfl⟩
    · rw [List.takeWhile_cons_of_neg (p := fun g : Glyph => isContinue g.toChar) hg]
      -- The flags have ended, and a carriage return goes on with them no more than a line feed.
      refine ⟨?_, rfl⟩
      cases hl : g.is '\n' with
      | false =>
        rw [crlf_cons hl,
          List.takeWhile_cons_of_neg (p := fun g : Glyph => isContinue g.toChar) hg]
      | true =>
        have hr : ¬isContinue (Glyph.char '\r').toChar = true :=
          Bool.eq_false_iff.1 (key '\r' (by decide))
        rw [crlf_cons_of_line hl,
          List.takeWhile_cons_of_neg (p := fun g : Glyph => isContinue g.toChar) hr]

/-- **The scan of a regular expression is the same with either end of a line**, if it escapes
none. The hypothesis is about all that the scan takes, for a regular expression ends no later
than its line, and an escape is the one way to take a line feed. -/
theorem regexExtent_crlf {inClass : Bool}
    (hline : hasLine (x.take (regexExtent inClass x).length) = false) :
    (regexExtent inClass x).Widens x (regexExtent inClass (crlf x)) := by
  fun_induction regexExtent inClass x with
  | case1 => exact .broken 0 _
  | case2 inClass g x hg =>
    have hreturn (u : Text) : regexExtent inClass (.char '\r' :: u)
        = (regexExtent inClass u).extend 1 := by
      rw [regexExtent.eq_def]
      rfl
    have hstop : regexExtent inClass (g :: crlf x) = .broken 0 .regex := by
      rw [regexExtent.eq_def]
      exact if_pos hg
    rw [crlf_cons_of_line hg, hreturn, hstop]
    exact .cut (.inr rfl) (by rw [Glyph.eq_char_of_is hg (by decide)]; rfl)
  | case3 inClass g hg hb k x ih =>
    rw [Extent.length_extend, Nat.add_comm, List.take_succ_cons, List.take_succ_cons,
      hasLine_cons, hasLine_cons, Bool.or_eq_false_iff, Bool.or_eq_false_iff] at hline
    have hwide := ((ih hline.2.2).cons hline.2.1).cons hline.1
    rw [Extent.extend_extend, Extent.extend_extend] at hwide
    rw [crlf_cons hline.1, crlf_cons hline.2.1, regexExtent.eq_def inClass (g :: k :: crlf x)]
    dsimp only
    rwa [if_neg hg, if_pos hb]
  | case4 inClass g hg hb =>
    have hbroken := Extent.Widens.broken (x := [g]) 1 .regex
    rw [List.take_succ_cons, List.take_nil, crlf_cons (is_eq_false hb (by decide))] at hbroken
    rw [crlf_cons (is_eq_false hb (by decide)), regexExtent.eq_def]
    dsimp only
    rwa [if_neg hg, if_pos hb]
  | case7 inClass g x hg hb ho hc hend =>
    obtain ⟨hflags, hplain⟩ := flagLength_crlf x
    have hg' : g.is '\n' = false := Bool.eq_false_iff.2 hg
    have hclosed := Extent.Widens.closed (x := x) (flagLength x)
    have hle : flagLength x ≤ x.length := (List.takeWhile_sublist _).length_le
    rw [crlf_of_hasLine hplain, List.length_take, Nat.min_eq_left hle] at hclosed
    rw [crlf_cons hg', regexExtent.eq_def inClass (g :: crlf x)]
    dsimp only
    rw [if_neg hg, if_neg hb, if_neg ho, if_neg hc, if_pos hend, hflags]
    exact hclosed.cons hg'
  | case8 inClass g x hg hb ho hc hend ih =>
    rw [Extent.length_extend, Nat.add_comm, List.take_succ_cons, hasLine_cons,
      Bool.or_eq_false_iff] at hline
    rw [crlf_cons hline.1, regexExtent.eq_def inClass (g :: crlf x)]
    dsimp only
    rw [if_neg hg, if_neg hb, if_neg ho, if_neg hc, if_neg hend]
    exact (ih hline.2).cons hline.1
  | _ =>
    -- a bracket opens or closes a class
    rename_i ih
    rw [Extent.length_extend, Nat.add_comm, List.take_succ_cons, hasLine_cons,
      Bool.or_eq_false_iff] at hline
    have hwide := (ih hline.2).cons hline.1
    rw [crlf_cons hline.1, regexExtent.eq_def _ (_ :: crlf _)]
    simp_all

/-! ## Names, numbers and punctuators

None of them contains a line feed or a carriage return, so each of them stops at the end of a
line, whichever that is. -/

/-- A name ends where it did, if no escape in it takes the end of a line. -/
theorem nameLength_crlf {m : NameMode} (h : hasLine (x.take (nameLength m x)) = false) :
    nameLength m (crlf x) = nameLength m x := by
  induction x generalizing m with
  | nil => rfl
  | cons g x ih =>
    cases hn : m.next? g with
    | none =>
      have hz : nameLength m (g :: x) = 0 := by rw [nameLength_cons, hn]
      obtain ⟨hm, hg⟩ := done_of_nameLength_eq_zero hz
      rw [hz]
      refine nameLength_eq_zero hm ?_
      cases hl : g.is '\n' with
      | false => rwa [crlf_cons hl, stopsName_cons]
      | true =>
        rw [crlf_cons_of_line hl, stopsName_cons]
        decide
    | some m' =>
      rw [nameLength_cons, hn] at h
      dsimp only at h
      rw [Nat.add_comm, List.take_succ_cons, hasLine_cons, Bool.or_eq_false_iff] at h
      rw [crlf_cons h.1, nameLength_cons, nameLength_cons, hn]
      dsimp only
      rw [ih h.2]

/-- Nothing without an end of a line goes on across one. The comparison stops at the first glyph
that differs, and both glyphs of the end of a line differ from the prefix. -/
theorem isPrefixOf_crlf {p : Text} (hp : p.all (fun g => !(g.is '\n' || g.is '\r')) = true) :
    p.isPrefixOf (crlf x) = p.isPrefixOf x := by
  induction p generalizing x with
  | nil => simp
  | cons a p ih =>
    rw [List.all_cons, Bool.and_eq_true, Bool.not_eq_true', Bool.or_eq_false_iff] at hp
    cases x with
    | nil => rfl
    | cons g x =>
      cases hg : g.is '\n' with
      | false => rw [crlf_cons hg, List.isPrefixOf, List.isPrefixOf, ih hp.2]
      | true =>
        have hne (k : Glyph) (hk : k.is '\n' = true ∨ k.is '\r' = true) : (a == k) = false :=
          beq_false_of_ne fun h => by
            rw [h] at hp
            rcases hk with hk | hk <;> rw [hk] at hp <;> simp at hp
        rw [crlf_cons_of_line hg, List.isPrefixOf, List.isPrefixOf, hne g (.inl hg),
          hne (.char '\r') (.inr rfl), Bool.false_and, Bool.false_and]

/-- The same punctuators are prefixes, so the same one is found. -/
theorem punctuatorLength_crlf (x : Text) : punctuatorLength (crlf x) = punctuatorLength x := by
  have key : ∀ p ∈ punctuators, (Text.ofString p).all (fun g => !(g.is '\n' || g.is '\r'))
      = true := by decide
  have hfind (l : List String)
      (hl : ∀ p ∈ l, (Text.ofString p).all (fun g => !(g.is '\n' || g.is '\r')) = true) :
      l.find? (fun p => (Text.ofString p).isPrefixOf (crlf x))
          = l.find? (fun p => (Text.ofString p).isPrefixOf x) := by
    induction l with
    | nil => rfl
    | cons p l ih =>
      rw [List.find?_cons, List.find?_cons, isPrefixOf_crlf (hl p List.mem_cons_self),
        ih fun q hq => hl q (List.mem_cons_of_mem _ hq)]
  rw [punctuatorLength, hfind _ key]
  rfl

/-- Whether a number is hexadecimal is told by a prefix. -/
theorem isHexadecimal_crlf (x : Text) : isHexadecimal (crlf x) = isHexadecimal x := by
  rw [isHexadecimal, isPrefixOf_crlf (by decide), isPrefixOf_crlf (by decide)]
  rfl

/-- Looking for one of two other glyphs finds the same. -/
theorem startsWith_crlf {a b : Char} (ha : a ≠ '\n' ∧ a ≠ '\r')
    (hb : b ≠ '\n' ∧ b ≠ '\r') (x : Text) :
    startsWith (crlf x) a b = startsWith x a b := by
  rw [startsWith_eq, startsWith_eq]
  exact head?_any_crlf (f := fun c => c == a || c == b)
    ⟨by rw [beq_false_of_ne ha.1.symm, beq_false_of_ne hb.1.symm]; rfl,
      by rw [beq_false_of_ne ha.2.symm, beq_false_of_ne hb.2.symm]; rfl⟩ x

/-- A number ends where it did. The cases are those of the scan. It takes no line feed, and
where it looks ahead, it looks for a point or a sign. -/
theorem numberLength_crlf (hexadecimal : Bool) (x : Text) :
    numberLength hexadecimal (crlf x) = numberLength hexadecimal x := by
  -- A glyph that the scan takes is no line feed.
  have hplain {g : Glyph} (hg : ¬(!(isContinue g.toChar || g.is '.')) = true) :
      g.is '\n' = false := by
    rw [Bool.eq_false_iff]
    intro hl
    rw [Glyph.is, beq_iff_eq] at hl
    exact hg (by rw [Glyph.is, hl]; decide)
  have hpoint (x : Text) : startsWith (crlf x) '.' '.' = startsWith x '.' '.' :=
    startsWith_crlf (by decide) (by decide) x
  have hsign (x : Text) : startsWith (crlf x) '+' '-' = startsWith x '+' '-' :=
    startsWith_crlf (by decide) (by decide) x
  fun_induction numberLength hexadecimal x with
  | case1 => rfl
  | case2 g x hg =>
    cases hl : g.is '\n' with
    | false =>
      rw [crlf_cons hl, numberLength.eq_def]
      exact if_pos hg
    | true =>
      rw [crlf_cons_of_line hl, numberLength.eq_def]
      exact if_pos (by decide)
  | case3 g x hg hp =>
    rw [crlf_cons (hplain hg), numberLength.eq_def]
    dsimp only
    rw [if_neg hg, hpoint, if_pos hp]
  | case4 g hg k x hp he ih =>
    -- An exponent with its sign: two glyphs are taken, neither of them a line feed.
    have hk : k.is '\n' = false := by
      rw [Bool.and_eq_true, startsWith, Bool.or_eq_true] at he
      exact he.2.elim (is_eq_false · (by decide)) (is_eq_false · (by decide))
    have hs := hsign (k :: x)
    have hp' := hpoint (k :: x)
    rw [crlf_cons hk] at hs hp'
    rw [crlf_cons (hplain hg), crlf_cons hk, numberLength.eq_def]
    dsimp only
    rw [if_neg hg, hp', if_neg hp, hs, if_pos he, ih]
  | case5 g hg hp he =>
    rw [Bool.and_eq_true] at he
    cases he.2
  | case6 g x hg hp he ih =>
    rw [crlf_cons (hplain hg), numberLength.eq_def]
    dsimp only
    rw [if_neg hg, hpoint, if_neg hp, hsign, if_neg he, ih]

/-! ## Lexemes

The alternatives of the lexer, each with its lemma from above. What the condition means differs:
an identifier, a number, a regular expression and a punctuator must not contain a line feed, and
for strings and templates the scan says whether an escape takes one. -/

/-- Whether an escape in the text of a token takes the end of a line: in a template literal one
of a string in a substitution, and else any. -/
def escapesLine : Text → Bool
  | [] => false
  | g :: rest =>
    if g.is '\x60' then stringEscapesLine [.template] rest
    else if g.is '"' || g.is '\'' then stringEscapesLine [.string g.toChar] rest
    else hasLine rest

/-- The second lexeme is that of a text with carriage returns if the first is that of the text.
A literal that is left open at the end of a line is so behind the carriage return. -/
inductive Widens (x : Text) : Lexeme → Lexeme → Prop
  /-- The same glyphs belong to the lexeme. -/
  | same (l : Lexeme) : Widens x l ⟨l.kind, (crlf (x.take l.length)).length, l.fault⟩
  /-- The literal is left open at the end of a line. -/
  | cut {kind : Token.Kind} {n : Nat} {f : LexicalFault} {more : Text}
      (hf : f = .string ∨ f = .regex)
    (hd : x.drop n = .char '\n' :: more) :
    Widens x ⟨kind, n, some f⟩ ⟨kind, (crlf (x.take n)).length + 1, some f⟩

/-- A literal is one glyph longer than what is scanned behind its opening mark. -/
theorem widens_delimited {e e' : Extent} (kind : Token.Kind) (h : e.Widens x e')
    (hg : g.is '\n' = false) :
    Widens (g :: x) (delimited kind e) (delimited kind e') := by
  have hlen (n : Nat) : (crlf ((g :: x).take (1 + n))).length
      = 1 + (crlf (x.take n)).length := by
    rw [Nat.add_comm, List.take_succ_cons, crlf_cons hg, List.length_cons, Nat.add_comm]
  cases h with
  | closed n =>
    have hsame := Widens.same (x := g :: x) ⟨kind, 1 + n, none⟩
    rwa [hlen] at hsame
  | broken n f =>
    have hsame := Widens.same (x := g :: x) ⟨.illegal, 1 + n, some f⟩
    rwa [hlen] at hsame
  | @cut n f more hf hd =>
    rw [delimited, delimited, ← Nat.add_assoc, ← hlen]
    exact .cut hf (by rw [Nat.add_comm, List.drop_succ_cons, hd])

/-- A lexeme without a line feed has the same glyphs. -/
theorem widens_whole {kind : Token.Kind} {n : Nat} (hn : n ≤ x.length)
    (hline : hasLine (x.take n) = false) :
    Widens x (whole kind n) (whole kind n) := by
  have hsame := Widens.same (x := x) (whole kind n)
  rw [whole, crlf_of_hasLine hline, List.length_take, Nat.min_eq_left hn] at hsame
  exact hsame

/-- Outside of strings and templates no line feed stands in a token in which no escape takes
one. -/
theorem hasLine_of_escapesLine {n : Nat} (hg : g.is '\n' = false) (htick : ¬g.is '\x60' = true)
    (hquote : ¬(g.is '"' || g.is '\'') = true) (he : escapesLine ((g :: x).take n) = false) :
    hasLine ((g :: x).take n) = false := by
  cases n with
  | zero => rfl
  | succ n =>
    rw [List.take_succ_cons, escapesLine, if_neg htick, if_neg hquote] at he
    rw [List.take_succ_cons, hasLine_cons, hg, he]
    rfl

/-- A string is the same with either end of a line. It is scanned like a string in a
substitution, with nothing else open. -/
theorem widens_string (hg : g.is '\n' = false) (hquote : (g.is '"' || g.is '\'') = true)
    (he : escapesLine ((g :: x).take (delimited .string (stringExtent g.toChar x)).length)
      = false) :
    Widens (g :: x) (delimited .string (stringExtent g.toChar x))
      (delimited .string (stringExtent g.toChar (crlf x))) := by
  have hchar : g.toChar = '"' ∨ g.toChar = '\'' := by simpa [Glyph.is] using hquote
  have htick : ¬g.is '\x60' = true := by
    rw [Glyph.is]
    rcases hchar with hc | hc <;> rw [hc] <;> decide
  rw [delimited_length, List.take_succ_cons, escapesLine, if_neg htick, if_pos hquote,
    ← templateExtent_string, stringEscapesLine_take] at he
  rw [← templateExtent_string, ← templateExtent_string]
  refine widens_delimited .string (templateExtent_crlf (fun q hq => ?_) he) hg
  rcases hchar with hc | hc <;> simp [hc] at hq <;> simp [hq]

/-- **A lexeme is the same with either end of a line**, if no escape in it takes one. -/
theorem first_crlf {prev : Option Token} (hg : g.is '\n' = false)
    (he : escapesLine ((g :: x).take (first prev g x).length) = false) :
    Widens (g :: x) (first prev g x) (first prev g (crlf x)) := by
  -- The tests on the glyph behind the first see no difference.
  have hstart : (crlf x).head?.any (fun h => isStart h.toChar)
      = x.head?.any (fun h => isStart h.toChar) :=
    head?_any_crlf (f := isStart) (by decide) x
  have hdigit : (crlf x).head?.any (fun h => h.toChar.isDigit)
      = x.head?.any (fun h => h.toChar.isDigit) :=
    head?_any_crlf (f := Char.isDigit) (by decide) x
  -- A token that starts with another mark is no string and no template.
  have hnot {c : Char} (hc : g.is c = true) (hne : ∀ d ∈ ['\x60', '"', '\''], c ≠ d) :
      ¬g.is '\x60' = true ∧ ¬(g.is '"' || g.is '\'') = true := by
    rw [is_eq_false hc (hne _ (by decide)), is_eq_false hc (hne _ (by decide)),
      is_eq_false hc (hne _ (by decide))]
    decide
  revert he
  unfold first
  rw [hstart, hdigit, ← crlf_cons hg]
  split
  · rename_i hs
    intro he
    have hname : ¬g.is '\x60' = true ∧ ¬(g.is '"' || g.is '\'') = true := by
      rcases (Bool.or_eq_true _ _).mp hs with hs | hs
      · rw [is_eq_false_of_isStart hs (by decide), is_eq_false_of_isStart hs (by decide),
          is_eq_false_of_isStart hs (by decide)]
        decide
      · exact hnot hs (List.all_iff_forall_prop.1 (by decide))
    have hline := hasLine_of_escapesLine hg hname.1 hname.2 he
    rw [nameLength_crlf hline]
    exact widens_whole (nameLength_le _ _) hline
  split
  · rename_i hs
    intro he
    rw [Bool.and_eq_true] at hs
    have hmark := hnot hs.1 (List.all_iff_forall_prop.1 (by decide))
    have hline := hasLine_of_escapesLine hg hmark.1 hmark.2 he
    have hrest := hline
    rw [whole, Nat.add_comm, List.take_succ_cons, hasLine_cons, Bool.or_eq_false_iff] at hrest
    rw [nameLength_crlf hrest.2]
    exact widens_whole (by rw [Nat.add_comm]; exact Nat.succ_le_succ (nameLength_le _ _)) hline
  split
  · intro _
    have hcontinue {c : Char} (hc : isContinue c = true) : (c != '\n') = true :=
      bne_iff_ne.2 fun h => absurd (h ▸ hc) (by decide)
    have hall := all_take_numberLength hcontinue (by decide) (isHexadecimal (g :: x)) (g :: x)
    rw [isHexadecimal_crlf, numberLength_crlf]
    exact widens_whole (numberLength_le _ _) (hasLine_of_all hall)
  split
  · rename_i hquote
    exact widens_string hg hquote
  split
  · rename_i htick
    intro he
    rw [delimited_length, List.take_succ_cons, escapesLine, if_pos htick, stringEscapesLine_take]
      at he
    exact widens_delimited .template (templateExtent_crlf (fun q hq => by simp at hq) he) hg
  rename_i hquote htick
  split
  · intro he
    have hline := hasLine_of_escapesLine hg htick hquote he
    rw [delimited_length, List.take_succ_cons, hasLine_cons, Bool.or_eq_false_iff] at hline
    exact widens_delimited .regex (regexExtent_crlf hline.2) hg
  · intro he
    rw [punctuatorLength_crlf]
    exact widens_whole (punctuatorLength_le g x) (hasLine_of_escapesLine hg htick hquote he)

end Lexeme

namespace TokenStream

/-- The second stream has the tokens of the first with a carriage return in front of every line
feed. If a string or a regular expression is left open at the end of a line, its text goes on to
the carriage return. -/
structure Widens (s s' : TokenStream) : Prop where
  /-- The tokens are the same. -/
  tokens : s'.tokens.map Token.word = s.tokens.map fun t =>
    ⟨t.kind, crlf t.text, t.newlineBefore⟩
  /-- The same is left open. -/
  fault : s'.ending.fault = s.ending.fault
  /-- They end alike. -/
  kind : s'.ending.token.kind = s.ending.token.kind
  /-- A line ends before the end of the one if it does before that of the other. -/
  newlineBefore : s'.ending.token.newlineBefore = s.ending.token.newlineBefore
  /-- The text of what is left open is the same up to the end of the line. -/
  text : s'.ending.token.text = crlf s.ending.token.text ∨
    (s.ending.fault = some .string ∨ s.ending.fault = some .regex) ∧
      s'.ending.token.text = crlf s.ending.token.text ++ [.char '\r']

/-- Of a token a slash asks the same with either end of a line. The words and marks that it asks
for contain no line feed. -/
theorem regexAllowed_crlf {t t' : Token} (hkind : t'.kind = t.kind)
    (htext : t'.text = crlf t.text) :
    Lexeme.regexAllowed (some t) = Lexeme.regexAllowed (some t') := by
  have key : ∀ w ∈ Lexeme.regexPrecedes, hasLine (Text.ofString w) = false := by decide
  rw [Lexeme.regexAllowed, Lexeme.regexAllowed, hkind, htext]
  congr 1
  rw [Bool.eq_iff_iff, List.any_eq_true, List.any_eq_true]
  refine exists_congr fun w => and_congr_right fun hw => ?_
  rw [beq_iff_eq, beq_iff_eq, crlf_eq_iff (key w hw)]

/-- A token in front of both streams. -/
theorem Widens.cons {t t' : Token} {s s' : TokenStream} (h : s.Widens s')
    (hkind : t'.kind = t.kind)
    (htext : t'.text = crlf t.text) (hnewline : t'.newlineBefore = t.newlineBefore) :
    (TokenStream.cons t s).Widens (TokenStream.cons t' s') where
  tokens := by
    show t'.word :: _ = _
    rw [h.tokens, Token.word, hkind, htext, hnewline]
    rfl
  fault := h.fault
  kind := h.kind
  newlineBefore := h.newlineBefore
  text := h.text

/-- The token at the beginning of a text is the same with either end of a line, and so is what
comes behind it. If a literal is left open at the end of a line, the stream ends there, and
nothing is said about what comes behind. -/
theorem widens_tokenAt (prev prev' : Option Token) (start start' : Position)
    (newline : Bool) {g : Glyph}
    {more : Text} (hg : g.is '\n' = false)
    (h : Lexeme.Widens (g :: more) (Lexeme.first prev g more)
      (Lexeme.first prev' g (crlf more))) :
    let t := tokenAt prev start newline g more
    let t' := tokenAt prev' start' newline g (crlf more)
    t'.kind = t.kind ∧ (Lexeme.first prev' g (crlf more)).fault
    = (Lexeme.first prev g more).fault ∧
      (t'.text = crlf t.text ∧ (crlf more).drop ((Lexeme.first prev' g (crlf more)).length - 1) =
          crlf (more.drop ((Lexeme.first prev g more).length - 1)) ∨
        ((Lexeme.first prev g more).fault = some .string ∨
          (Lexeme.first prev g more).fault = some .regex) ∧
          t'.text = crlf t.text ++ [Glyph.char '\r']) := by
  have hpos := Lexeme.first_length_pos prev g more
  have hpos' := Lexeme.first_length_pos prev' g (crlf more)
  unfold tokenAt
  dsimp only
  generalize Lexeme.first prev g more = l at h hpos ⊢
  generalize Lexeme.first prev' g (crlf more) = l' at h hpos' ⊢
  rw [← crlf_cons hg]
  cases h with
  -- The token ends where it did, counted in glyphs that stay together.
  | same =>
    refine ⟨rfl, rfl, .inl ⟨take_crlf _ _, ?_⟩⟩
    obtain ⟨n, hn⟩ := Nat.exists_eq_add_one.2 hpos
    obtain ⟨n', hn'⟩ := Nat.exists_eq_add_one.2 hpos'
    have hdrop := drop_crlf l.length (g :: more)
    dsimp only at hn' ⊢
    rw [hn', hn, crlf_cons hg, List.drop_succ_cons, List.drop_succ_cons] at hdrop
    rw [hn', hn, Nat.add_sub_cancel, Nat.add_sub_cancel, hdrop]
  | @cut kind n f u hf hd =>
    refine ⟨rfl, rfl, .inr ⟨hf.imp (congrArg some) (congrArg some), ?_⟩⟩
    -- A literal that the line cuts off has the carriage return at its end.
    have hsplit : crlf (g :: more) = crlf ((g :: more).take n) ++ Glyph.char '\r' ::
        .char '\n' :: crlf u := by
      conv =>
        lhs
        rw [← List.take_append_drop n (g :: more), hd, crlf_append, crlf_cons_of_line rfl]
    rw [hsplit, List.take_length_add_append]
    rfl

/-- **A source has the same tokens with either end of a line**, if no escape in it takes one.
The induction is on the length of the text. The gaps are the same, the token is the same, and
behind it both texts go on alike, behind tokens that allow for a regular expression alike. -/
theorem widens_lexFrom {prev prev' : Option Token} (here here' : Position) {x : Text}
    (hprev : Lexeme.regexAllowed prev = Lexeme.regexAllowed prev')
    (he : ∀ t ∈ (lexFrom prev here x).all, Lexeme.escapesLine t.text = false) :
    (lexFrom prev here x).Widens (lexFrom prev' here' (crlf x)) := by
  induction hn : x.length using Nat.strongRecOn generalizing prev prev' here here' x with
  | _ n ih =>
    obtain ⟨hclosed, hnewline, hdrop⟩ := Gap.before_crlf x
    cases hc : (Gap.before x).closed with
    | false =>
      rw [lexFrom_of_open hc, lexFrom_of_open (hclosed.trans hc), hnewline]
      exact ⟨rfl, rfl, rfl, rfl, .inl rfl⟩
    | true =>
      cases hd : x.drop (Gap.before x).length with
      | nil =>
        rw [lexFrom_of_gap hc hd,
          lexFrom_of_gap (hclosed.trans hc) (by rw [hdrop, hd]; rfl), hnewline]
        exact ⟨rfl, rfl, rfl, rfl, .inl rfl⟩
      | cons g more =>
        -- A token does not start with a line feed, which would belong to the gap.
        have hg : g.is '\n' = false := by
          rw [Bool.eq_false_iff]
          intro hl
          have hstop := Gap.next?_of_drop (m := .blank) hc hd
          rw [Gap.Mode.next?, beq_iff_eq.1 hl] at hstop
          cases hstop
        rw [hd, crlf_cons hg] at hdrop
        have hwide (start start' : Position)
            (h : Lexeme.escapesLine
              ((g :: more).take (Lexeme.first prev g more).length) = false) :=
          widens_tokenAt prev prev' start start' (Gap.before x).newline hg
            (Lexeme.first_congr hprev g (crlf more) ▸ Lexeme.first_crlf hg h)
        cases hl : (Lexeme.first prev g more).fault with
        | some fault =>
          rw [lexFrom_of_fault hc hd hl] at he ⊢
          obtain ⟨hkind, hfault, htext⟩ := hwide (here.after (x.take (Gap.before x).length))
            (here'.after ((crlf x).take (Gap.before (crlf x)).length)) (he _ List.mem_cons_self)
          rw [hl] at hfault htext
          rw [lexFrom_of_fault (hclosed.trans hc) hdrop hfault, hnewline]
          exact ⟨rfl, rfl, hkind, rfl, htext.imp_left And.left⟩
        | none =>
          rw [lexFrom_of_token hc hd hl] at he ⊢
          obtain ⟨hkind, hfault, htext⟩ := hwide (here.after (x.take (Gap.before x).length))
            (here'.after ((crlf x).take (Gap.before (crlf x)).length)) (he _ List.mem_cons_self)
          rw [hl] at hfault htext
          obtain ⟨htext, hrest⟩ := htext.resolve_right fun h => by simp at h
          rw [lexFrom_of_token (hclosed.trans hc) hdrop hfault, hnewline]
          dsimp only
          rw [hrest]
          exact (ih _ (hn ▸ length_drop_lt hd _) _ _ (regexAllowed_crlf hkind htext)
            (fun t ht => he t (List.mem_cons_of_mem _ ht)) rfl).cons
            hkind htext rfl

/-! ## In a file

In the bytes of a file a line feed is one byte, and it is never a part of an encoding. So
carriage returns may be put in before the file is decoded or behind. -/

/-- The bytes of a file with a carriage return in front of every line feed. -/
def crlfBytes (bytes : List UInt8) : List UInt8 :=
  bytes.flatMap fun b => if b = 10 then [13, 10] else [b]

/-- Line feeds are read one by one, whatever stands around them. The file is cut at a line feed,
and both pieces are shorter. Without a line feed nothing changes. -/
theorem decode_crlfBytes (bytes : List UInt8) :
    decode (crlfBytes bytes) = crlf (decode bytes) := by
  induction hn : bytes.length using Nat.strongRecOn generalizing bytes with
  | _ n ih =>
    by_cases hmem : 10 ∈ bytes
    · obtain ⟨xs, ys, rfl⟩ := List.append_of_mem hmem
      rw [List.length_append, List.length_cons] at hn
      have hsplit : crlfBytes (xs ++ 10 :: ys)
          = crlfBytes xs ++ 13 :: ([] ++ 10 :: crlfBytes ys) := by
        simp [crlfBytes]
      rw [hsplit, decode_append (by decide), decode_append (by decide),
        decode_append (by decide), crlf_append, crlf_cons_of_line (by decide),
        ih xs.length (by omega) xs rfl, ih ys.length (by omega) ys rfl]
      rfl
    · have hsame : crlfBytes bytes = bytes := by
        clear ih hn
        induction bytes with
        | nil => rfl
        | cons b bytes ih =>
          rw [List.mem_cons, not_or] at hmem
          have hstep : crlfBytes (b :: bytes) = b :: crlfBytes bytes := by
            simp [crlfBytes, Ne.symm hmem.1]
          rw [hstep, ih hmem.2]
      have hline : hasLine (decode bytes) = false := by
        rw [Bool.eq_false_iff]
        intro hl
        obtain ⟨g, hg, hl⟩ := List.any_eq_true.1 hl
        obtain rfl := Glyph.eq_char_of_is hl (by decide)
        refine hmem ?_
        rw [← encode_decode bytes]
        exact List.mem_flatMap.2 ⟨_, hg, by decide⟩
      rw [hsame, crlf_of_hasLine hline]

/-- **A file has the same tokens with either end of a line**, if no escape in it takes one: of
the same kinds, with the same texts up to the ends of lines, and with lines ending before the
same of them. What is left open is the same. -/
theorem widens_lex (bytes : List UInt8)
    (he : ∀ t ∈ (lex (decode bytes)).all, Lexeme.escapesLine t.text = false) :
    (lex (decode bytes)).Widens (lex (decode (crlfBytes bytes))) := by
  rw [decode_crlfBytes]
  exact widens_lexFrom .start .start rfl he

/-- A template literal over two lines, of which the first ends in an escape. -/
theorem widens_lex_template :
    (lex (decode (ofString "f(\x60a\\\n$\x7b'b'\x7d\x60) // c\nd").encode)).Widens
      (lex (decode (crlfBytes (ofString "f(\x60a\\\n$\x7b'b'\x7d\x60) // c\nd").encode))) :=
  widens_lex _ (by decide +kernel)

/-- **An escaped line feed is one too many.** A string that goes on in the next line is left
open if the line ends with a carriage return. -/
theorem not_widens_lex :
    ¬∀ bytes : List UInt8, 13 ∉ bytes →
    (lex (decode bytes)).Widens (lex (decode (crlfBytes bytes))) := by
  intro h
  have hfault := (h (ofString "'a\\\nb'").encode (by decide)).fault
  exact absurd hfault (by decide +kernel)

end TokenStream

end Exemplar
