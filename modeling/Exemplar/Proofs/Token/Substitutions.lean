import Exemplar.Proofs.Token.Nesting
import Exemplar.Proofs.Token.Respacing

/-!
# Substitutions of template literals

A substitution of a template literal ends at the first closing brace that closes none opened in
it. It is looked for in two ways. The scan of the template literal goes glyph by glyph and knows
braces, strings and template literals. Lexing goes token by token and knows comments, regular
expressions and the escapes of identifiers besides. The two find the same brace wherever none of
these three stands before it.

The two ways are compared token by token. In front of a token stands a gap, which without a
comment is made of blanks, and the scan goes over blanks. A token that is no string, no template
literal and no brace has no glyph in it that means anything to the scan (`isFlat`), so the scan
goes over it as well. At a string or a template literal the scan opens one and goes on as the
lexer does, until it is closed. And a brace counts for both.

So behind each token both stand at the same place with the same number of open braces
(`templateExtent_token`), or both have come to an end: the substitution is closed, or something
is left open in it. The rest is an induction on what is left of the text.
-/

namespace Exemplar

open Exemplar.Text.Identifier

namespace Lexeme

variable {x w : Text} {g : Glyph} {d : Nat}

/-- The glyphs that open or close something in a substitution. -/
def nests : List Char := ['\x7b', '\x7d', '"', '\'', '\x60']

/-- Whether nothing is opened or closed by a glyph. -/
def isFlat (c : Char) : Bool := !nests.contains c

/-- Nothing in a name opens or closes anything. -/
theorem isFlat_of_isContinue {c : Char} (h : isContinue c = true) : isFlat c = true := by
  have key : nests.all (fun c => !isContinue c) = true := by decide
  rw [isFlat, Bool.not_eq_true', Bool.eq_false_iff]
  intro hc
  have hnot := List.all_eq_true.1 key c (List.contains_iff_mem.1 hc)
  rw [h] at hnot
  cases hnot

/-- Nor does a blank. -/
theorem isFlat_of_isBlank {c : Char} (h : Text.isBlank c = true) : isFlat c = true := by
  have key : nests.all (fun c => !Text.isBlank c) = true := by decide
  rw [isFlat, Bool.not_eq_true', Bool.eq_false_iff]
  intro hc
  have hnot := List.all_eq_true.1 key c (List.contains_iff_mem.1 hc)
  rw [h] at hnot
  cases hnot

/-- **The scan goes over what opens and closes nothing.** -/
theorem templateExtent_flat (hw : w.all (fun g => isFlat g.toChar) = true) (x : Text) :
    templateExtent [.substitution d] (w ++ x)
      = (templateExtent [.substitution d] x).extend w.length := by
  induction w with
  | nil =>
    rw [List.nil_append, List.length_nil]
    cases templateExtent [.substitution d] x <;> simp only [Extent.extend, Nat.zero_add]
  | cons g w ih =>
    rw [List.all_cons, Bool.and_eq_true, isFlat, Bool.not_eq_true', nests] at hw
    simp only [List.contains_cons, List.contains_nil, Bool.or_false, Bool.or_eq_false_iff] at hw
    have hstep : Open.step (.substitution d) [] g (w ++ x) = .take 0 [.substitution d] := by
      simp only [Open.step, Glyph.is, hw.1, Bool.false_eq_true, if_false]
    rw [List.cons_append, templateExtent_step, hstep, List.length_cons, Nat.add_comm,
      ← Extent.extend_extend, ← ih hw.2]
    rfl

/-- An identifier without an escape is made of what goes on with one. An escape would have to
start with a backslash. -/
theorem all_isContinue_of_read {m m' : NameMode} (hm : m.Done) (h : ∀ g ∈ x, g.is '\\' = false)
    (hr : m.read x = some m') : x.all (fun g => isContinue g.toChar) = true := by
  induction x generalizing m with
  | nil => rfl
  | cons g x ih =>
    have hg := h g List.mem_cons_self
    rw [NameMode.read_cons] at hr
    obtain ⟨m₁, hn, hr⟩ := Option.bind_eq_some_iff.1 hr
    have hcontinue : isContinue g.toChar = true := by
      cases hc : isContinue g.toChar with
      | true => rfl
      | false =>
        rw [(NameMode.next?_eq_none hm g).2 (by rw [hg, hc]; rfl)] at hn
        cases hn
    rw [next?_of_isContinue hm hcontinue] at hn
    obtain rfl := Option.some.inj hn
    rw [List.all_cons, hcontinue,
      ih NameMode.done_plain (fun k hk => h k (List.mem_cons_of_mem _ hk)) hr]
    rfl

/-- How far a lexeme reaches. -/
def extent (l : Lexeme) : Extent :=
  match l.fault with
  | none => .closed l.length
  | some fault => .broken l.length fault

/-- The extent of a literal has its opening mark in front. -/
theorem extent_delimited (kind : Token.Kind) (e : Extent) :
    (delimited kind e).extent = e.extend 1 := by
  cases e <;> rfl

/-- The scan goes over a token that opens and closes nothing. -/
theorem templateExtent_whole {n : Nat} {kind : Token.Kind} (hn : n ≤ x.length)
    (hflat : (x.take n).all (fun g => isFlat g.toChar) = true) :
    templateExtent [.substitution d] x =
      (whole kind n).extent.andThen fun n => templateExtent [.substitution d] (x.drop n) := by
  have hx := templateExtent_flat (d := d) hflat (x.drop n)
  rwa [List.take_append_drop, List.length_take, Nat.min_eq_left hn] at hx

/-- A name without an escape opens and closes nothing. -/
theorem flat_nameLength (h : ∀ k ∈ x.take (nameLength .plain x), k.is '\\' = false) :
    (x.take (nameLength .plain x)).all (fun g => isFlat g.toChar) = true := by
  obtain ⟨m, hm, -⟩ := read_take_nameLength .plain x
  have hall := all_isContinue_of_read NameMode.done_plain h hm
  rw [List.all_eq_true] at hall ⊢
  exact fun g hg => isFlat_of_isContinue (hall g hg)

/-- A punctuator that does not start with a brace has none in it: the braces are punctuators by
themselves. -/
theorem flat_punctuatorLength (hg : isFlat g.toChar = true) :
    ((g :: x).take (punctuatorLength (g :: x))).all (fun g => isFlat g.toChar) = true := by
  have key : punctuators.all (fun p => (Text.ofString p).all fun g => isFlat g.toChar)
      = true := by decide
  unfold punctuatorLength
  cases hf : punctuators.find? (fun p => (Text.ofString p).isPrefixOf (g :: x)) with
  | none =>
    show ((g :: x).take 1).all _ = true
    rw [List.take_succ_cons, List.take_zero, List.all_cons, hg]
    rfl
  | some p =>
    dsimp only
    have hlen : (Text.ofString p).length = p.length := by
      rw [Text.ofString, List.length_map, String.length_toList]
    have hp := List.find?_some hf
    rw [← hlen, ← List.prefix_iff_eq_take.1 (List.isPrefixOf_iff_prefix.1 hp)]
    exact List.all_eq_true.1 key p (List.mem_of_find?_eq_some hf)

/-- Over a string or a template literal the scan goes by opening it, and goes on with the
substitution behind it. The scan keeps what is open in a list, and what is in front of the
substitution is closed before it goes on. -/
theorem templateExtent_delimited {o : Open} {kind : Token.Kind} {e : Extent}
    (he : templateExtent [o] x = e)
    (hs : Open.step (.substitution d) [] g x = .take 0 [o, .substitution d]) :
    templateExtent [.substitution d] (g :: x) =
      (delimited kind e).extent.andThen fun n =>
      templateExtent [.substitution d] ((g :: x).drop n) := by
  have happend := templateExtent_append [o] [.substitution d] x
  rw [he] at happend
  rw [templateExtent_step, hs, extent_delimited, andThen_extend]
  simp only [Nat.add_comm 1, List.drop_succ_cons]
  exact congrArg (Extent.extend 1) happend

/-- **A token and the scan of a substitution** that stands at it: the scan goes over the token,
or finds it left open. The cases are those of the lexer. Its alternative for regular expressions
is excluded, and so are identifiers with an escape; every other lexeme is one of the two sorts
above. -/
theorem templateExtent_first {prev : Option Token} (hopen : g.is '\x7b' = false)
    (hclose : g.is '\x7d' = false)
    (hregex : (g.is '/' && regexAllowed prev) = false)
    (hname : (first prev g x).kind = .ident →
      ∀ k ∈ (g :: x).take (first prev g x).length, k.is '\\' = false) :
    templateExtent [.substitution d] (g :: x) =
      (first prev g x).extent.andThen fun n =>
      templateExtent [.substitution d] ((g :: x).drop n) := by
  revert hname
  unfold first
  -- An identifier.
  split
  · intro hname
    exact templateExtent_whole (nameLength_le _ _) (flat_nameLength (hname rfl))
  split
  · -- A private name has a hash in front, which means nothing to the scan either.
    rename_i hhash
    intro hname
    have hflat : isFlat g.toChar = true := by
      rw [Bool.and_eq_true, Glyph.is, beq_iff_eq] at hhash
      rw [hhash.1]
      decide
    refine templateExtent_whole
      (by rw [Nat.add_comm]; exact Nat.succ_le_succ (nameLength_le _ _)) ?_
    have hname := hname rfl
    rw [whole, Nat.add_comm, List.take_succ_cons] at hname
    rw [Nat.add_comm, List.take_succ_cons, List.all_cons, hflat,
      flat_nameLength fun k hk => hname k (List.mem_cons_of_mem _ hk)]
    rfl
  split
  · intro _
    exact templateExtent_whole (numberLength_le _ _)
      (all_take_numberLength isFlat_of_isContinue (by decide) _ _)
  split
  · -- A string: its quote opens one for the scan, too.
    rename_i hquote
    intro _
    refine templateExtent_delimited (templateExtent_string _ _) ?_
    rcases (Bool.or_eq_true _ _).mp hquote with hq | hq
    · rw [Open.step, hopen, hclose, hq, beq_iff_eq.1 hq]
      rfl
    · rw [Open.step, hopen, hclose, hq, is_eq_false hq (by decide), beq_iff_eq.1 hq]
      rfl
  split
  · -- A template literal.
    rename_i htick
    intro _
    refine templateExtent_delimited rfl ?_
    rw [Open.step, hopen, hclose, htick, is_eq_false htick (by decide),
      is_eq_false htick (by decide)]
    rfl
  -- All else is a punctuator, as a regular expression may not start here.
  rename_i hquote htick
  rw [hregex]
  intro _
  have hflat : isFlat g.toChar = true := by
    rw [Bool.or_eq_true, not_or, Bool.not_eq_true, Bool.not_eq_true] at hquote
    rw [Bool.not_eq_true] at htick
    simp only [isFlat, nests, List.contains_cons, List.contains_nil,
      Bool.or_false, Bool.not_eq_true']
    simp only [Glyph.is] at hopen hclose hquote htick
    rw [hopen, hclose, hquote.1, hquote.2, htick]
    rfl
  exact templateExtent_whole (punctuatorLength_le g x) (flat_punctuatorLength hflat)

end Lexeme

/-- The number of glyphs of what is closed. -/
def Extent.closed? : Extent → Option Nat
  | .closed n => some n
  | .broken _ _ => none

/-- Glyphs in front are counted as well. -/
theorem Extent.closed?_extend (n : Nat) (e : Extent) :
    (e.extend n).closed? = e.closed?.map (n + ·) := by
  cases e <;> rfl

/-- How many braces are open behind a token of a substitution, if it does not close the
substitution. -/
def Token.braces (d : Nat) (t : Token) : Option Nat :=
  if t.is "\x7b" then some (d + 1)
  else if t.is "\x7d" then if d = 0 then none else some (d - 1)
  else some d

/-- Whether the scan of a template literal can tell where a token ends: it is no regular
expression, and no identifier with an escape. -/
def Token.isPlain (t : Token) : Bool :=
  (t.kind == .punct || !t.text.head?.any (·.is '/'))
    && (t.kind != .ident || t.text.all fun g => !g.is '\\')

namespace TokenStream

/-- The token that closes a substitution in which braces are open. -/
def closing (d : Nat) : List Token → Option Token
  | [] => none
  | t :: more =>
    match t.braces d with
    | some d' => closing d' more
    | none => some t

/-- The tokens up to the one that closes a substitution, or all if none does. -/
def enclosed (d : Nat) : List Token → List Token
  | [] => []
  | t :: more =>
    match t.braces d with
    | some d' => t :: enclosed d' more
    | none => [t]

/-- A brace is a token by itself. There is no longer punctuator that starts with one. -/
theorem first_of_brace {c : Char} (hc : c ∈ ['\x7b', '\x7d'])
    (prev : Option Token) (more : Text) :
    Lexeme.first prev (.char c) more = .whole .punct 1 := by
  have key : ∀ c ∈ ['\x7b', '\x7d'], Lexeme.isMark c = true ∧ c ∈ Lexeme.solos ∧ c ≠ '.' :=
    List.all_iff_forall_prop.1 (by decide)
  obtain ⟨hmark, hsolo, hdot⟩ := key c hc
  rw [Lexeme.first_of_isMark hmark fun h => absurd h hdot,
    Lexeme.punctuatorLength_eq_one (.inr hsolo)]

/-- A slash that starts a regular expression starts no punctuator. -/
theorem kind_first_of_slash {prev : Option Token} {g : Glyph}
    {more : Text} (hg : g.is '/' = true)
    (hprev : Lexeme.regexAllowed prev = true) : (Lexeme.first prev g more).kind ≠ .punct := by
  rw [Lexeme.first_of_slash hg, if_pos hprev]
  cases Lexeme.regexExtent false more <;> exact nofun

section Token

variable {prev : Option Token} {start : Position} {newline : Bool} {g : Glyph} {more : Text}

/-- A token that does not start with a brace is none. -/
theorem braces_tokenAt (hopen : g.is '\x7b' = false) (hclose : g.is '\x7d' = false) (d : Nat) :
    (tokenAt prev start newline g more).braces d = some d := by
  have hnot {c : Char} {word : String}
      (hword : Text.ofString word = [.char c]) (hc : g.is c = false) :
      (tokenAt prev start newline g more).is word = false := by
    rw [Token.is, Bool.and_eq_false_iff]
    refine .inr (beq_eq_false_iff_ne.2 fun h => ?_)
    obtain ⟨n, hn⟩ := Nat.exists_eq_add_one.2 (Lexeme.first_length_pos prev g more)
    rw [tokenAt, hword] at h
    dsimp only at h
    rw [hn, List.take_succ_cons] at h
    rw [(List.cons.inj h).1, Glyph.is, Glyph.toChar_char, beq_self_eq_true] at hc
    cases hc
  rw [Token.braces, hnot (c := '\x7b') rfl hopen, hnot (c := '\x7d') rfl hclose]
  rfl

/-- **One token of a substitution.** The scan goes over it or finds it left open. Behind a brace
other braces are open, or the substitution is closed. Behind an opening brace one more is open,
and behind a closing one there is one less. If none was open, the list of what is open is empty,
and the scan stops there. -/
theorem templateExtent_token
    (hplain : (tokenAt prev start newline g more).isPlain = true) (d : Nat) :
    Lexeme.templateExtent [.substitution d] (g :: more) =
      (Lexeme.first prev g more).extent.andThen fun n =>
        Lexeme.templateExtent
        (((tokenAt prev start newline g more).braces d).map Lexeme.Open.substitution).toList
          ((g :: more).drop n) := by
  cases hopen : g.is '\x7b' with
  | true =>
    obtain rfl := Glyph.eq_char_of_is hopen (by decide)
    have hfirst := first_of_brace (c := '\x7b') (by decide) prev more
    have hbraces : (tokenAt prev start newline (.char '\x7b') more).braces d = some (d + 1) := by
      rw [tokenAt, hfirst]
      rfl
    rw [hbraces, hfirst, Lexeme.templateExtent_step]
    rfl
  -- The token is no brace, so as many braces are open behind it as before.
  | false =>
    cases hclose : g.is '\x7d' with
    | true =>
      obtain rfl := Glyph.eq_char_of_is hclose (by decide)
      have hfirst := first_of_brace (c := '\x7d') (by decide) prev more
      have hbraces : (tokenAt prev start newline (.char '\x7d') more).braces d =
          if d = 0 then none else some (d - 1) := by
        rw [tokenAt, hfirst]
        rfl
      rw [hbraces, hfirst, Lexeme.templateExtent_step]
      cases d <;> rfl
    | false =>
      rw [braces_tokenAt hopen hclose]
      rw [Token.isPlain, Bool.and_eq_true] at hplain
      obtain ⟨hslash, hescape⟩ := hplain
      obtain ⟨n, hn⟩ := Nat.exists_eq_add_one.2 (Lexeme.first_length_pos prev g more)
      have hhead : (tokenAt prev start newline g more).text.head? = some g := by
        show ((g :: more).take (Lexeme.first prev g more).length).head? = some g
        rw [hn, List.take_succ_cons]
        rfl
      refine Lexeme.templateExtent_first hopen hclose ?_ fun hkind => ?_
      · -- A slash at which a regular expression may start would make the token one.
        rw [Bool.and_eq_false_iff, ← Bool.not_eq_true, ← Bool.not_eq_true, ← not_and_or]
        rintro ⟨hg, hprev⟩
        rw [hhead, Option.any_some, hg, Bool.not_true, Bool.or_false, beq_iff_eq] at hslash
        exact kind_first_of_slash hg hprev hslash
      · have hident : (tokenAt prev start newline g more).kind = .ident := hkind
        rw [hident, bne_self_eq_false, Bool.false_or, List.all_eq_true] at hescape
        exact fun k hk => by simpa using hescape k hk

end Token

/-- A gap without a slash is made of blanks. A comment would start with one. -/
theorem blanks_of_noSlash {x : Text} (h : ∀ g ∈ x.take (Gap.before x).length, g.is '/' = false) :
    (Gap.before x).closed = true ∧
    ∀ g ∈ x.take (Gap.before x).length, Text.isBlank g.toChar = true := by
  unfold Gap.before at h ⊢
  induction x with
  | nil => exact ⟨rfl, fun g hg => by cases hg⟩
  | cons g x ih =>
    cases hn : Gap.Mode.blank.next? g x with
    | none =>
      rw [Gap.scan, hn]
      exact ⟨rfl, fun g hg => by cases hg⟩
    | some r =>
      obtain ⟨m, newline⟩ := r
      rw [Gap.scan, hn] at h ⊢
      dsimp only [Gap.extend] at h ⊢
      rw [Nat.add_comm, List.take_succ_cons] at h ⊢
      have hg := h g List.mem_cons_self
      -- Of the steps of a gap only those over blanks and line ends need no slash.
      have hstep : m = .blank ∧ Text.isBlank g.toChar = true := by
        simp only [Gap.Mode.next?, hg, Bool.false_and, Bool.false_eq_true, if_false] at hn
        split at hn
        · cases hn
          exact ⟨rfl, Text.isBlank_of_isLineEnd (by assumption)⟩
        split at hn
        · cases hn
          exact ⟨rfl, by assumption⟩
        · cases hn
      obtain ⟨rfl, hblank⟩ := hstep
      obtain ⟨hclosed, hall⟩ := ih fun k hk => h k (List.mem_cons_of_mem _ hk)
      exact ⟨hclosed, List.forall_mem_cons.2 ⟨hblank, hall⟩⟩

/-- The first token, and then those behind it unless it closes the substitution. -/
theorem enclosed_cons (d : Nat) (t : Token) (more : List Token) :
    enclosed d (t :: more) = t :: ((t.braces d).map (enclosed · more)).getD [] := by
  rw [enclosed]
  cases t.braces d <;> rfl

/-- The first token closes the substitution, or one behind it does. -/
theorem closing_cons (d : Nat) (t : Token) (more : List Token) :
    closing d (t :: more) = ((t.braces d).map (closing · more)).getD (some t) := by
  rw [closing]
  cases t.braces d <;> rfl

/-- The gap before the first token holds no comment, so the scan goes over it. Were there a
comment in it, one of its bytes would be a slash. The bytes in front of the text are there
because gaps are cut out of the whole file. -/
theorem templateExtent_gap {front : List UInt8} {here : Position} {x : Text} {t : Token}
    {more : List Token} {d : Nat}
    (hhere : here.offset = front.length)
    (hstart : t.start = here.after (x.take (Gap.before x).length))
    (hgaps : ∀ gap ∈ gaps (front ++ x.encode) here.offset (enclosed d (t :: more)), 47 ∉ gap) :
    (Gap.before x).closed = true ∧ Lexeme.templateExtent [.substitution d] x =
      (Lexeme.templateExtent [.substitution d] (x.drop (Gap.before x).length)).extend
      (Gap.before x).length := by
  have hsplit := List.take_append_drop (Gap.before x).length x
  have hoff := offset_after_append hhere (x.take (Gap.before x).length)
  have hgap := hgaps (front ++ x.encode |>.extract here.offset t.start.offset)
    (by rw [enclosed_cons]; exact List.mem_cons_self)
  rw [hstart, hoff, hhere, List.length_append, ← hsplit, Text.encode_append,
    hsplit, extract_middle] at hgap
  obtain ⟨hclosed, hblank⟩ := blanks_of_noSlash (is_slash_of_encode hgap)
  have hflat := Lexeme.templateExtent_flat (d := d)
    (List.all_eq_true.2 fun g hg => Lexeme.isFlat_of_isBlank (hblank g hg))
    (x.drop (Gap.before x).length)
  have hle : (Gap.before x).length ≤ x.length := Gap.length_scan_le _ x
  rw [hsplit, List.length_take, Nat.min_eq_left hle] at hflat
  exact ⟨hclosed, hflat⟩

/-- A place behind the first token, counted from where the token stops. -/
theorem after_take_of_token {prev : Option Token} {here : Position} {x more : Text} {g : Glyph}
    (hd : x.drop (Gap.before x).length = g :: more) (m : Nat) :
    here.after (x.take ((Gap.before x).length + ((Lexeme.first prev g more).length + m))) =
      (tokenAt prev (here.after (x.take (Gap.before x).length))
        (Gap.before x).newline g more).stop.after
        (((g :: more).drop (Lexeme.first prev g more).length).take m) := by
  rw [stop_tokenAt, ← Position.after_append, List.append_assoc, List.take_add, hd, List.take_add]
  rfl

/-- **The token that closes a substitution is where the scan of the template literal finds its
end**, if up to there no comment, no regular expression and no escape in an identifier stands.
The text stands behind the bytes `front`. -/
theorem map_stop_closing {front : List UInt8} (prev : Option Token)
    (here : Position) (x : Text) (d : Nat)
    (hhere : here.offset = front.length)
    (hgaps : ∀ gap ∈ gaps (front ++ x.encode) here.offset (enclosed d (lexFrom prev here x).all),
      47 ∉ gap)
    (hplain : ∀ t ∈ enclosed d (lexFrom prev here x).all, t.isPlain = true) :
    (closing d (lexFrom prev here x).tokens).map Token.stop =
      (Lexeme.templateExtent [.substitution d] x).closed?.map fun n =>
      here.after (x.take n) := by
  induction hn : x.length using Nat.strongRecOn generalizing front prev here x d with
  | _ n ih =>
    -- A gap that is left open is a comment, which has been excluded.
    cases hc : (Gap.before x).closed with
    | false =>
      rw [lexFrom_of_open hc] at hgaps
      exact absurd (templateExtent_gap hhere rfl hgaps).1 (Bool.eq_false_iff.1 hc)
    | true =>
    cases hd : x.drop (Gap.before x).length with
    | nil =>
      rw [lexFrom_of_gap hc hd] at hgaps ⊢
      rw [(templateExtent_gap hhere rfl hgaps).2, hd]
      rfl
    | cons g more =>
    cases hl : (Lexeme.first prev g more).fault with
    | some fault =>
      rw [lexFrom_of_fault hc hd hl] at hgaps hplain ⊢
      have hfirst := templateExtent_token (hplain _ (by
        rw [all, List.nil_append, enclosed_cons]; exact List.mem_cons_self)) d
      rw [(templateExtent_gap hhere rfl hgaps).2, hd, hfirst, Lexeme.extent, hl]
      rfl
    | none =>
      rw [lexFrom_of_token hc hd hl] at hgaps hplain ⊢
      dsimp only at hgaps hplain ⊢
      generalize ht : tokenAt prev (here.after (x.take (Gap.before x).length))
        (Gap.before x).newline g more = t
        at hgaps hplain ⊢
      rw [all_cons] at hgaps hplain
      have hgap := (templateExtent_gap hhere (by rw [← ht]; rfl) hgaps).2
      rw [enclosed_cons] at hgaps hplain
      have hfirst := templateExtent_token (ht ▸ hplain t List.mem_cons_self) d
      rw [ht, Lexeme.extent, hl] at hfirst
      rw [hgap, hd, hfirst, cons, closing_cons]
      dsimp only [Extent.andThen]
      -- the places behind the token, counted from its end
      have hplace (m : Nat) := ht ▸ @after_take_of_token prev here x more g hd m
      rw [Extent.closed?_extend, Extent.closed?_extend, Option.map_map, Option.map_map]
      simp only [Function.comp_def, hplace]
      -- The token closes the substitution, or the rest is scanned with `d'` open braces.
      cases hb : t.braces d with
      | none => simp [Lexeme.templateExtent, Extent.closed?]
      | some d' =>
        rw [hb] at hgaps hplain
        have hrest : (g :: more).drop (Lexeme.first prev g more).length =
            more.drop ((Lexeme.first prev g more).length - 1) := by
          obtain ⟨k, hk⟩ := Nat.exists_eq_add_one.2 (Lexeme.first_length_pos prev g more)
          rw [hk, List.drop_succ_cons, Nat.add_sub_cancel]
        have hstop : t.stop = here.after (x.take (Gap.before x).length ++ t.text) := by
          rw [← ht, stop_tokenAt]
        have hfront : x.encode = Text.encode (x.take (Gap.before x).length ++ t.text) ++
            Text.encode (more.drop ((Lexeme.first prev g more).length - 1)) := by
          rw [← Text.encode_append, ← ht, take_append_tokenAt hd]
        rw [hfront, ← List.append_assoc] at hgaps
        rw [hrest]
        exact ih _ (hn ▸ length_drop_lt hd _) (some t) t.stop _ d'
          (hstop ▸ offset_after_append hhere _)
          (fun gap hgap => hgaps gap (List.mem_cons_of_mem _ hgap))
          (fun u hu => hplain u (List.mem_cons_of_mem _ hu)) rfl

/-! ## In a file

The gaps and places are those of a file, so the substitution is cut out of one. -/

/-- **The scan of a template literal and lexing agree on where a substitution ends.** The
substitution stands anywhere in a file. The scan finds it closed at a place exactly if lexing
from its beginning on, behind whatever token, comes to a token that closes it and stops there.
Up to this token, or to the end if there is none, no comment may stand between the tokens, and
no token may be a regular expression or an identifier with an escape. -/
theorem substitution_closed_iff (bytes : List UInt8) (p rest : Text)
    (prev : Option Token) (stop : Position)
    (hsplit : Text.decode bytes = p ++ .char '$' :: .char '\x7b' :: rest) :
    let here := Position.start.after (p ++ [.char '$', .char '\x7b'])
    let s := lexFrom prev here rest
    (∀ gap ∈ gaps bytes here.offset (enclosed 0 s.all), 47 ∉ gap) →
    (∀ t ∈ enclosed 0 s.all, t.isPlain = true) →
      ((∃ n, Lexeme.templateExtent [.substitution 0] rest = .closed n ∧
        here.after (rest.take n) = stop) ↔
        ∃ t, closing 0 s.tokens = some t ∧ t.stop = stop) := by
  intro here s hgaps hplain
  have hbytes : bytes = Text.encode (p ++ [.char '$', .char '\x7b']) ++ rest.encode := by
    rw [← Text.encode_append, List.append_assoc, List.cons_append, List.singleton_append,
      ← hsplit, Text.encode_decode]
  have hstart : Position.start.offset = ([] : List UInt8).length := rfl
  have hhere : here.offset = (Text.encode (p ++ [.char '$', .char '\x7b'])).length :=
    offset_after_append hstart _
  -- Both sides of the equivalence, as functions of the text.
  have hstops := map_stop_closing prev here rest 0 hhere (hbytes ▸ hgaps) hplain
  have hiff : (closing 0 s.tokens).map Token.stop = some stop ↔
      ((Lexeme.templateExtent [.substitution 0] rest).closed?.map fun n => here.after
        (rest.take n)) = some stop := by
    rw [hstops]
  rw [Option.map_eq_some_iff, Option.map_eq_some_iff] at hiff
  refine Iff.trans ?_ hiff.symm
  cases Lexeme.templateExtent [.substitution 0] rest <;> simp [Extent.closed?]

/-- A substitution with an object literal in it, which holds a string with a brace. -/
theorem substitution_closed_iff_object :
    let rest := Text.ofString " \x7bb: 'x\x7d'\x7d.c \x7dd\x60"
    (∃ n, Lexeme.templateExtent [.substitution 0] rest = .closed n ∧
        (⟨1, 4, 4⟩ : Position).after (rest.take n) = ⟨1, 18, 18⟩) ↔
      ∃ t, closing 0 (lexFrom (some (Word.mark "\x7b").token) ⟨1, 4, 4⟩ rest).tokens = some t ∧
        t.stop = ⟨1, 18, 18⟩ :=
  substitution_closed_iff (Text.ofString "\x60a$\x7b \x7bb: 'x\x7d'\x7d.c \x7dd\x60").encode
    (Text.ofString "\x60a") (Text.ofString " \x7bb: 'x\x7d'\x7d.c \x7dd\x60") _ _
    (by decide +kernel) (by decide +kernel) (by decide +kernel)

/-- **The scan does not know regular expressions.** It takes a quote in one for the beginning of
a string. -/
theorem not_substitution_closed_iff :
    ¬∀ (bytes : List UInt8) (p rest : Text) (stop : Position),
      Text.decode bytes = p ++ .char '$' :: .char '\x7b' :: rest →
        let here := Position.start.after (p ++ [.char '$', .char '\x7b'])
        ((∃ n, Lexeme.templateExtent [.substitution 0] rest = .closed n ∧
          here.after (rest.take n) = stop) ↔
          ∃ t, closing 0 (lexFrom (some (Word.mark "\x7b").token) here rest).tokens
              = some t ∧ t.stop = stop) := by
  intro h
  let rest := Text.ofString " /'/.test(a) \x7d\x60"
  have hclosing :
      (closing 0 (lexFrom (some (Word.mark "\x7b").token) ⟨1, 3, 3⟩ rest).tokens).map Token.stop
      = some ⟨1, 17, 17⟩ := by decide +kernel
  have hscan : Lexeme.templateExtent [.substitution 0] rest = .broken 15 .string := by
    decide +kernel
  have hiff := h (Text.ofString "\x60$\x7b /'/.test(a) \x7d\x60").encode
    (Text.ofString "\x60") rest ⟨1, 17, 17⟩
    (by decide +kernel)
  obtain ⟨n, hn, -⟩ := hiff.2 (Option.map_eq_some_iff.1 hclosing)
  rw [hscan] at hn
  cases hn

end TokenStream

end Exemplar
