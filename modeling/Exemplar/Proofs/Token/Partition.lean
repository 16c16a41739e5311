import Exemplar.Proofs.Text.Decoding
import Exemplar.Proofs.Token.Gaps
import Exemplar.Proofs.Token.Tokens
import Mathlib.Data.List.Forall2

/-!
# The tokens partition the source

Lexing cuts a source into gaps and tokens, one after the other, and nothing is dropped or read
twice. This is first said of texts and places: `Covers` follows the recursion of lexing, one
constructor for each way a step of it can go. What it means for the bytes of a file is read off
afterwards, by induction on the cover: tokens are slices of the file, in order and apart from
each other, and between them there are gaps and nothing else.

Every lexeme has at least one glyph, whatever it starts with, and this alone is why lexing comes
to an end: a source has at most as many tokens as bytes.

A place is a line, a character and an offset, but only the offset counts here. It moves by the
width of what is passed, so a text that stands behind some bytes starts at their number and
stops at their number and its own together. Nothing more is needed of decoding than that the
bytes of a text are those it was decoded from.
-/

namespace Exemplar

namespace Lexeme

open Text.Identifier

/-- A number has the glyph it starts with. -/
theorem numberLength_pos {g : Glyph} {rest : Text} {hexadecimal : Bool}
    (h : (g.toChar.isDigit || (g.is '.' && rest.head?.any (fun h => h.toChar.isDigit))) = true) :
    0 < numberLength hexadecimal (g :: rest) := by
  have hstay : (isContinue g.toChar || g.is '.') = true := by
    simp only [Bool.or_eq_true, Bool.and_eq_true] at h ⊢
    exact h.imp isContinue_of_isDigit And.left
  have hdots : (g.is '.' && startsWith rest '.' '.') = false := by
    rw [Bool.and_eq_false_iff]
    by_cases hg : g.is '.' = true
    · -- a number that starts with a point has a digit behind it
      right
      have hd : g.toChar.isDigit = false := by
        rw [Glyph.is, beq_iff_eq] at hg
        rw [hg]; decide
      rw [hd, hg, Bool.false_or, Bool.true_and] at h
      cases rest with
      | nil => rfl
      | cons k u =>
        simp only [List.head?_cons, Option.any_some] at h
        have : k.is '.' = false := by
          rw [Glyph.is, beq_eq_false_iff_ne]
          intro hk
          rw [hk] at h
          exact absurd h (by decide)
        simp [startsWith, this]
    · exact .inl (Bool.not_eq_true _ ▸ hg)
  rw [numberLength.eq_def]
  simp only [hstay, hdots, Bool.not_true, Bool.false_eq_true, if_false]
  split
  · split <;> omega
  · omega

/-- A punctuator has a glyph. -/
theorem punctuatorLength_pos (t : Text) : 0 < punctuatorLength t := by
  unfold punctuatorLength
  split
  · rename_i p hp
    have key : ∀ p ∈ punctuators, 0 < p.length := by decide
    exact key p (List.mem_of_find?_eq_some hp)
  · exact Nat.one_pos

/-- What starts with a mark has the mark. -/
theorem delimited_length_pos (kind : Token.Kind) (x : Extent) :
    0 < (delimited kind x).length := by
  cases x <;> exact Nat.lt_of_lt_of_le Nat.one_pos (Nat.le_add_right 1 _)

/-- **A lexeme has the glyph it starts with.** -/
theorem first_length_pos (prev : Option Token) (g : Glyph) (rest : Text) :
    0 < (first prev g rest).length := by
  unfold first
  -- The first glyph says what kind of lexeme it is, and each kind takes it.
  split
  · rename_i h
    show 0 < nameLength .plain (g :: rest)
    refine Nat.pos_of_ne_zero fun hz => ?_
    obtain ⟨hescape, hcontinue⟩ := Bool.or_eq_false_iff.1 (done_of_nameLength_eq_zero hz).2
    rcases (Bool.or_eq_true _ _).mp h with h | h
    · rw [isContinue_of_isStart h] at hcontinue
      cases hcontinue
    · rw [h] at hescape
      cases hescape
  split
  · exact Nat.lt_of_lt_of_le Nat.one_pos (Nat.le_add_right 1 _)
  split
  · exact numberLength_pos (by assumption)
  split
  · exact delimited_length_pos _ _
  split
  · exact delimited_length_pos _ _
  split
  · exact delimited_length_pos _ _
  · exact punctuatorLength_pos _

/-- A lexeme is a literal left open exactly if it has a fault, and never the end. Only strings,
templates and regular expressions can be left open. -/
theorem first_kind (prev : Option Token) (g : Glyph) (rest : Text) :
    ((first prev g rest).fault = none ∧ (first prev g rest).kind ≠ .eof ∧
        (first prev g rest).kind ≠ .illegal) ∨
      ∃ fault, (first prev g rest).fault = some fault ∧ (first prev g rest).kind = .illegal := by
  -- A literal with an end of its own is closed or left open.
  have hdelimited : ∀ {kind : Token.Kind} (x : Extent), kind ≠ .eof → kind ≠ .illegal →
      ((delimited kind x).fault = none ∧ (delimited kind x).kind ≠ .eof ∧
        (delimited kind x).kind ≠ .illegal) ∨
      ∃ fault, (delimited kind x).fault = some fault ∧ (delimited kind x).kind = .illegal := by
    intro kind x he hi
    cases x with
    | closed n => exact .inl ⟨rfl, he, hi⟩
    | broken n f => exact .inr ⟨f, rfl, rfl⟩
  unfold first
  split
  · exact .inl ⟨rfl, nofun, nofun⟩
  split
  · exact .inl ⟨rfl, nofun, nofun⟩
  split
  · exact .inl ⟨rfl, nofun, nofun⟩
  split
  · exact hdelimited _ nofun nofun
  split
  · exact hdelimited _ nofun nofun
  split
  · exact hdelimited _ nofun nofun
  · exact .inl ⟨rfl, nofun, nofun⟩

end Lexeme

/-- A gap with an open comment in it reaches to the end. A comment ends the scan only where it
is closed. -/
theorem Gap.length_scan_of_open {m : Mode} {t : Text} (h : (scan m t).closed = false) :
    (scan m t).length = t.length := by
  induction t generalizing m with
  | nil => rfl
  | cons g rest ih =>
    cases hnext : m.next? g rest with
    | none => simp [scan, hnext, none] at h
    | some r =>
      obtain ⟨m', newline⟩ := r
      have hm : (scan m' rest).closed = false := by simpa [scan, hnext, extend] using h
      rw [scan, hnext]
      show 1 + (scan m' rest).length = _
      rw [ih hm, List.length_cons, Nat.add_comm]

namespace TokenStream

/-! ## Covering a text

A step of lexing takes a gap, which may reach to the end or hold an open comment, and a lexeme,
which may be left open. The text of a token is what is between its places, so it need not be
said apart. -/

/-- The stream cuts the text, which stands at the place, into gaps and tokens. -/
inductive Covers : Position → Text → TokenStream → Prop
  /-- Only a gap is left. -/
  | gap {here : Position} {gap : Text} {newline : Bool} (hgap : IsGap True gap) :
    Covers here gap (atEnd (here.after gap) newline none)
  /-- A comment is left open. -/
  | comment {here : Position} {rest : Text} {newline : Bool} :
    Covers here rest (atEnd (here.after rest) newline (some .comment))
  /-- A literal is left open behind a gap. -/
  | literal {here : Position} {gap text more : Text} {newline : Bool} {fault : LexicalFault}
    (hgap : IsGap False gap) (hne : text ≠ []) :
    Covers here (gap ++ (text ++ more))
      ⟨[],
        ⟨⟨.illegal, text, ⟨here.after gap, (here.after gap).after text⟩, newline⟩, some fault⟩⟩
  /-- A token stands behind a gap. -/
  | token {here : Position} {gap more : Text} {t : Token} {s : TokenStream}
    (hgap : IsGap False gap) (hne : t.text ≠ []) (he : t.kind ≠ .eof) (hi : t.kind ≠ .illegal)
    (hstart : t.start = here.after gap) (hstop : t.stop = (here.after gap).after t.text)
    (h : Covers t.stop more s) :
    Covers here (gap ++ (t.text ++ more)) (cons t s)

/-- **Lexing covers the text.** By induction on the length of what is left. -/
theorem covers_lexFrom (prev : Option Token) (here : Position) (rest : Text) :
    Covers here rest (lexFrom prev here rest) := by
  induction hn : rest.length using Nat.strongRecOn generalizing prev here rest with
  | ind n ih =>
    subst hn
    rw [lexFrom_eq]
    dsimp only
    split
    · rename_i hclosed
      have hgap := Gap.isGap_before rest hclosed
      have hsplit := List.take_append_drop (Gap.before rest).length rest
      cases hd : rest.drop (Gap.before rest).length with
      | nil =>
        rw [hd, List.append_nil] at hsplit
        rw [hd, hsplit] at hgap
        rw [hsplit]
        exact .gap (by simpa using hgap)
      | cons g more =>
        dsimp only
        rw [hd] at hsplit hgap
        replace hgap : IsGap False (rest.take (Gap.before rest).length) := by simpa using hgap
        -- the lexeme has a first glyph, and what follows it is shorter
        obtain ⟨k, hk⟩ := Nat.exists_eq_add_one.2 (Lexeme.first_length_pos prev g more)
        have htext : (g :: more).take (Lexeme.first prev g more).length = g :: more.take k := by
          rw [hk, List.take_succ_cons]
        have hmore : (g :: more.take k) ++ more.drop k = g :: more := by
          rw [List.cons_append, List.take_append_drop]
        rw [htext, hk, Nat.add_sub_cancel]
        -- A lexeme without a fault is a token, and lexing goes on behind it. A faulty one is
        -- the last.
        rcases Lexeme.first_kind prev g more with ⟨hf, he, hi⟩ | ⟨fault, hf, hi⟩
        · rw [hf]
          conv => arg 2; rw [← hsplit, ← hmore]
          refine .token (t := ⟨_, g :: more.take k, _, _⟩) hgap
            (List.cons_ne_nil _ _) he hi rfl rfl ?_
          refine ih _ ?_ _ _ _ rfl
          have hlen := congrArg List.length hsplit
          rw [List.length_append, List.length_cons] at hlen
          rw [List.length_drop]
          omega
        · rw [hf, hi]
          conv => arg 2; rw [← hsplit, ← hmore]
          exact .literal hgap (List.cons_ne_nil _ _)
    · rename_i hopen
      have hlen : (Gap.before rest).length = rest.length :=
        Gap.length_scan_of_open (Bool.not_eq_true _ ▸ hopen)
      rw [hlen, List.take_length]
      exact .comment

/-! ## Partitioning the bytes

The bytes of a file are those in front of what is covered and those of the text. As the
induction goes on, what has been passed is added to the bytes in front, and the file is always
the same. -/

/-- The tokens together with the one that ends them. -/
def all (s : TokenStream) : List Token := s.tokens ++ [s.ending.token]

@[simp] theorem all_cons (t : Token) (s : TokenStream) : (cons t s).all = t :: s.all := rfl

/-- The bytes in front of each token, from where the token before it stops. In front of the first
they start at `here`. -/
def gaps (bytes : List UInt8) : Nat → List Token → List (List UInt8)
  | _, [] => []
  | here, t :: more => bytes.extract here t.start.offset :: gaps bytes t.stop.offset more

/-- A stream of tokens partitions the bytes of a file from the offset `here` on. -/
structure Partitions (bytes : List UInt8) (here : Nat) (s : TokenStream) : Prop where
  /-- The last token is the end of the file or a literal left open. -/
  ending_kind : s.ending.token.kind = .eof ∨ s.ending.token.kind = .illegal
  /-- No token before it is either. -/
  kind : ∀ t ∈ s.tokens, t.kind ≠ .eof ∧ t.kind ≠ .illegal
  /-- There are no more tokens than bytes. -/
  length_le : here + s.tokens.length ≤ bytes.length
  /-- Only the end of the file has no text. -/
  text_ne_nil : ∀ t ∈ s.all, t.kind ≠ .eof → t.text ≠ []
  /-- The text of a token is the slice of the file between its two places. -/
  text : ∀ t ∈ s.all, t.start.offset ≤ t.stop.offset ∧ t.stop.offset ≤ bytes.length ∧
    t.text.encode = bytes.extract t.start.offset t.stop.offset
  /-- No token starts before `here`. -/
  le_start : ∀ t ∈ s.all, here ≤ t.start.offset
  /-- No token starts before an earlier one stops. -/
  ordered : s.all.Pairwise (fun t u => t.stop.offset ≤ u.start.offset)
  /-- If nothing is left open, there is a gap in front of each token. -/
  gap : s.ending.fault = none → List.Forall₂
    (fun gap t => ∃ g : Text, g.encode = gap ∧ IsGap (t.kind = .eof) g)
    (gaps bytes here s.all) s.all
  /-- If nothing is left open, gaps and tokens in order are the file. -/
  whole : s.ending.fault = none →
    (List.zipWith (fun gap t => gap ++ t.text.encode) (gaps bytes here s.all) s.all).flatten
      = bytes.drop here

variable {bytes front : List UInt8} {here : Position}

/-- A slice of a list that is put together from three is the one in the middle. -/
theorem extract_middle (a b c : List UInt8) :
    (a ++ (b ++ c)).extract a.length (a.length + b.length) = b := by
  simp [List.extract]

/-- Where a text stands, seen from the bytes in front of it. -/
theorem offset_after_append (h : here.offset = front.length) (t : Text) :
    (here.after t).offset = (front ++ t.encode).length := by
  rw [Position.offset_after, h, List.length_append, Text.length_encode]

/-- The text of a token is a slice of the file it stands in. -/
theorem text_extract {gap text more : Text} {here : Position}
    (hoff : here.offset = (front ++ gap.encode).length) :
    here.offset ≤ (here.after text).offset ∧
      (here.after text).offset ≤ (front ++ (gap ++ (text ++ more)).encode).length ∧
      text.encode = (front ++ (gap ++ (text ++ more)).encode).extract here.offset
        (here.after text).offset := by
  have hstop := offset_after_append hoff text
  refine ⟨?_, ?_, ?_⟩
  · rw [Position.offset_after]; exact Nat.le_add_right _ _
  · rw [hstop]; simp only [Text.encode_append, List.length_append]; omega
  · have := extract_middle (front ++ gap.encode) text.encode more.encode
    rw [← List.length_append, ← hstop, ← hoff, List.append_assoc, ← Text.encode_append,
      ← Text.encode_append] at this
    exact this.symm

/-- A stream without tokens partitions what is left, given what is true of its end. That is the
case where the end is reached, in each of the three ways. -/
theorem partitions_of_tokens_nil {e : Token} {fault : Option LexicalFault} {n : Nat}
    (hkind : e.kind = .eof ∨ e.kind = .illegal) (hn : n ≤ bytes.length)
    (hne : e.kind ≠ .eof → e.text ≠ []) (hle : n ≤ e.start.offset)
    (htext : e.start.offset ≤ e.stop.offset ∧ e.stop.offset ≤ bytes.length ∧
      e.text.encode = bytes.extract e.start.offset e.stop.offset)
    (hgap : fault = none → (∃ g : Text, g.encode = bytes.extract n e.start.offset ∧
      IsGap (e.kind = .eof) g) ∧
        bytes.extract n e.start.offset ++ e.text.encode = bytes.drop n) :
    Partitions bytes n ⟨[], ⟨e, fault⟩⟩ where
  ending_kind := hkind
  kind _ ht := absurd ht List.not_mem_nil
  length_le := hn
  text_ne_nil t ht := by rw [List.mem_singleton.1 ht]; exact hne
  text t ht := by rw [List.mem_singleton.1 ht]; exact htext
  le_start t ht := by rw [List.mem_singleton.1 ht]; exact hle
  ordered := List.pairwise_singleton _ _
  gap h := .cons (hgap h).1 .nil
  whole h := by
    show (_ ++ _) ++ [] = _
    rw [List.append_nil]
    exact (hgap h).2

/-- **A cover is a partition.** What is covered stands behind the bytes `front`.

The induction is on the cover. In the last step, a token is put in front of a partition of what
follows: it stops where the bytes in front of that end, so it is before every later token, and
the gap before it is the slice in between. -/
theorem Covers.partitions {rest : Text} {s : TokenStream} (h : Covers here rest s)
    (hfront : here.offset = front.length) : Partitions (front ++ rest.encode) here.offset s := by
  induction h generalizing front with
  | @gap here gap newline hgap =>
    have hoff := offset_after_append hfront gap
    refine partitions_of_tokens_nil (.inl rfl) ?_
      (fun h => absurd rfl h) ?_ ⟨Nat.le_refl _, ?_, ?_⟩
      fun _ => ?_
    · rw [hfront, List.length_append]; exact Nat.le_add_right _ _
    · show _ ≤ (here.after gap).offset
      rw [Position.offset_after]; exact Nat.le_add_right _ _
    · exact Nat.le_of_eq hoff
    · show [] = (front ++ gap.encode).extract (here.after gap).offset (here.after gap).offset
      simp [List.extract]
    · have hex : (front ++ gap.encode).extract here.offset (here.after gap).offset
          = gap.encode := by
        have := extract_middle front gap.encode []
        rwa [List.append_nil, ← List.length_append, ← hoff, ← hfront] at this
      show (∃ g : Text, g.encode = (front ++ gap.encode).extract here.offset
        (here.after gap).offset ∧ _) ∧ (front ++ gap.encode).extract here.offset
        (here.after gap).offset ++ [] = _
      rw [hex]
      exact ⟨⟨gap, rfl, by simpa using hgap⟩, by simp [hfront]⟩
  | @comment here rest newline =>
    have hoff := offset_after_append hfront rest
    refine partitions_of_tokens_nil (.inl rfl) ?_
      (fun h => absurd rfl h) ?_ ⟨Nat.le_refl _, ?_, ?_⟩
      fun h => by cases h
    · rw [hfront, List.length_append]; exact Nat.le_add_right _ _
    · show _ ≤ (here.after rest).offset
      rw [Position.offset_after]; exact Nat.le_add_right _ _
    · exact Nat.le_of_eq hoff
    · show [] = (front ++ rest.encode).extract (here.after rest).offset (here.after rest).offset
      simp [List.extract]
  | @literal here gap text more newline fault hgap hne =>
    have hoff := offset_after_append hfront gap
    refine partitions_of_tokens_nil (.inr rfl) ?_ (fun _ => hne) ?_ ?_ fun h => by cases h
    · rw [hfront, List.length_append]; exact Nat.le_add_right _ _
    · show _ ≤ (here.after gap).offset
      rw [Position.offset_after]; exact Nat.le_add_right _ _
    · exact text_extract hoff
  | @token here gap more t s hgap hne he hi hstart hstop h ih =>
    have hoff : t.start.offset = (front ++ gap.encode).length :=
      hstart ▸ offset_after_append hfront gap
    have hoff' : t.stop.offset = (front ++ gap.encode ++ t.text.encode).length :=
      hstop ▸ offset_after_append (hstart ▸ hoff) t.text
    -- what follows the token stands behind more bytes of the same file
    replace ih := ih hoff'
    rw [show front ++ gap.encode ++ t.text.encode ++ more.encode =
      front ++ (gap ++ (t.text ++ more)).encode by simp] at ih
    have hex : (front ++ (gap ++ (t.text ++ more)).encode).extract here.offset t.start.offset =
        gap.encode := by
      rw [hoff, hfront, List.length_append, Text.encode_append, extract_middle]
    have hpos : 0 < t.text.encode.length := by
      rw [Text.length_encode]
      cases ht : t.text with
      | nil => exact absurd ht hne
      | cons g u => rw [Text.byteSize_cons]; exact Nat.add_pos_left g.width_pos _
    have hle : here.offset ≤ t.start.offset := by
      rw [hstart, Position.offset_after]; exact Nat.le_add_right _ _
    have hlt : t.start.offset < t.stop.offset := by
      rw [hoff', List.length_append, ← hoff]; exact Nat.lt_add_of_pos_right hpos
    refine ⟨ih.ending_kind, ?_, ?_, ?_, ?_, ?_, ?_, fun hf => ?_, fun hf => ?_⟩
    · intro u hu
      rcases List.mem_cons.1 hu with rfl | hu
      · exact ⟨he, hi⟩
      · exact ih.kind u hu
    · have := ih.length_le
      show here.offset + (s.tokens.length + 1) ≤ _
      omega
    · intro u hu
      rcases List.mem_cons.1 hu with rfl | hu
      · exact fun _ => hne
      · exact ih.text_ne_nil u hu
    · intro u hu
      rcases List.mem_cons.1 hu with rfl | hu
      · rw [hstop, ← hstart]
        exact text_extract hoff
      · exact ih.text u hu
    · intro u hu
      rcases List.mem_cons.1 hu with rfl | hu
      · exact hle
      · have := ih.le_start u hu
        omega
    · exact List.pairwise_cons.2 ⟨ih.le_start, ih.ordered⟩
    · refine .cons ⟨gap, hex.symm, ?_⟩ (ih.gap hf)
      rwa [eq_false he]
    · rw [all_cons, gaps, List.zipWith_cons_cons, List.flatten_cons,
        ih.whole hf, hex, hoff', hfront, show front ++ (gap ++ (t.text ++ more)).encode =
          (front ++ gap.encode ++ t.text.encode) ++ more.encode by simp, List.drop_left]
      simp only [List.append_assoc, List.drop_left]

/-- **Lexing partitions the source.** For every file, well-formed UTF-8 or not, the tokens are
slices of the file in their order and apart from each other, there are at most as many of them
as bytes, and the last is the end of the file or a literal left open. If nothing is left open,
what stands between them is blanks and whole comments, and nothing of the file is lost.

Nothing is in front of the whole text, and encoding it gives the file back. -/
theorem partitions_lex (bytes : List UInt8) : Partitions bytes 0 (lex (Text.decode bytes)) := by
  have h := (covers_lexFrom none .start (Text.decode bytes)).partitions
    (show Position.start.offset = ([] : List UInt8).length from rfl)
  rwa [List.nil_append, Text.encode_decode] at h

end TokenStream

end Exemplar
