import Exemplar.Token.Gap

/-!
# What a gap is made of

The scan of a gap walks over the glyphs and keeps a mode. This module says what it walked over,
without modes: a gap is a sequence of blanks and whole comments (`IsGap`). A block comment is
whole if it ends at its first `*` and slash; a comment to the end of the line is whole if that
end follows it, which may also be the end of the source.

The scan finds a gap whenever it finds every block comment closed. The converse is not of
interest here, since the end of a gap is settled by the token behind it.

For each mode there is something that the scan walks over from there to the end of the gap
(`Mode.Walks`): the rest of a comment first, if it is within one, and then a gap. One step takes
one glyph away from the front of that. As the step from one mode to the next looks at the glyph
behind as well, it has to be known that the scan takes that too, and within a comment it does.
-/

namespace Exemplar

/-- A glyph that is read as a character is that character, unless it is the one that stands for
stray bytes. -/
theorem Glyph.eq_char_of_is {g : Glyph} {c : Char} (h : g.is c = true) (hc : c ≠ replacement) :
    g = .char c := by
  simp only [Glyph.is, beq_iff_eq] at h
  cases g with
  | char d => rw [← h]; rfl
  | stray b => exact absurd h.symm hc

/-- Blanks and whole comments. A comment to the end of the line reaches up to a line feed; only
the last one of a source, where `last` holds, may do without. -/
inductive IsGap (last : Prop) : Text → Prop
  /-- Nothing at all. -/
  | nil : IsGap last []
  /-- A blank. -/
  | blank {g : Glyph} {s : Text} (hb : Text.isBlank g.toChar = true) (h : IsGap last s) :
    IsGap last (g :: s)
  /-- A comment to the end of the line. -/
  | line {body s : Text} (hbody : .char '\n' ∉ body) (h : IsGap last (.char '\n' :: s)) :
    IsGap last (.char '/' :: .char '/' :: (body ++ .char '\n' :: s))
  /-- A comment to the end of the source. -/
  | lastLine {body : Text} (hlast : last) (hbody : .char '\n' ∉ body) :
    IsGap last (.char '/' :: .char '/' :: body)
  /-- A block comment. -/
  | block {body s : Text} (hbody : ¬[.char '*', .char '/'] <:+: body) (h : IsGap last s) :
    IsGap last (.char '/' :: .char '*' :: (body ++ .char '*' :: .char '/' :: s))

namespace Gap

/-- What the scan walks over from a mode on. -/
def Mode.Walks (last : Prop) : Mode → Text → Prop
  | .blank, t => IsGap last t
  | .line, t => (last ∧ .char '\n' ∉ t) ∨
      ∃ body s, t = body ++ .char '\n' :: s ∧ .char '\n' ∉ body ∧ IsGap last (.char '\n' :: s)
  | .opening, t => ∃ g body s, t = g :: (body ++ .char '*' :: .char '/' :: s) ∧
      ¬[.char '*', .char '/'] <:+: body ∧ IsGap last s
  | .block, t => ∃ body s, t = body ++ .char '*' :: .char '/' :: s ∧
      ¬[.char '*', .char '/'] <:+: body ∧ IsGap last s
  | .closing, t => ∃ g s, t = g :: s ∧ IsGap last s

/-- A text that starts with a character does so also up to a later place. -/
theorem eq_char_of_startsWith {rest t : Text} {h : Glyph} {n : Nat} {c : Char}
    (hs : startsWith rest c = true) (ht : rest.take n = h :: t) (hc : c ≠ Glyph.replacement) :
    h = .char c := by
  cases rest with
  | nil => cases hs
  | cons k u =>
    cases n with
    | zero => cases ht
    | succ n =>
      obtain ⟨rfl, -⟩ := List.cons.inj ht
      exact Glyph.eq_char_of_is (by simpa [startsWith] using hs) hc

/-- Inside a comment the scan goes on. -/
theorem exists_cons_of_startsWith {rest : Text} {c : Char} (hs : startsWith rest c = true)
    {m : Mode} (hm : m ≠ .blank) : ∃ h u, rest.take (scan m rest).length = h :: u := by
  cases rest with
  | nil => cases hs
  | cons k u =>
    obtain ⟨m', newline, hnext⟩ : ∃ m' newline, m.next? k u = some (m', newline) := by
      cases m with
      | blank => exact absurd rfl hm
      | line => simp only [Mode.next?]; split <;> exact ⟨_, _, rfl⟩
      | opening => exact ⟨_, _, rfl⟩
      | block => simp only [Mode.next?]; split <;> exact ⟨_, _, rfl⟩
      | closing => exact ⟨_, _, rfl⟩
    refine ⟨k, u.take (scan m' u).length, ?_⟩
    rw [scan, hnext]
    show (k :: u).take (1 + _) = _
    rw [Nat.add_comm, List.take_succ_cons]

variable {last : Prop} {g : Glyph} {rest : Text} {m m' : Mode} {newline : Bool}

/-- **One step of the scan.** What is walked over from the next mode on is walked over from this
mode on, with one more glyph in front. There is a case for each mode, and in it one for each
branch of the step. -/
theorem Mode.Walks.cons (hnext : m.next? g rest = some (m', newline))
    (h : m'.Walks last (rest.take (scan m' rest).length)) :
    m.Walks last (g :: rest.take (scan m' rest).length) := by
  cases m with
  | blank =>
    -- the only mode with a choice: a blank, or one of the two kinds of comment
    simp only [next?] at hnext
    split at hnext
    · cases hnext; exact .blank (Text.isBlank_of_isLineEnd (by assumption)) h
    split at hnext
    · cases hnext; exact .blank (by assumption) h
    split at hnext
    · rename_i hc
      cases hnext
      rw [Bool.and_eq_true] at hc
      obtain rfl := Glyph.eq_char_of_is hc.1 (by decide)
      obtain ⟨k, u, hk⟩ := exists_cons_of_startsWith hc.2 (m := .line) (by decide)
      obtain rfl := eq_char_of_startsWith hc.2 hk (by decide)
      rw [hk] at h ⊢
      rcases h with ⟨hlast, hu⟩ | ⟨body, s, hs, hbody, hgap⟩
      · exact .lastLine hlast fun hmem => hu (List.mem_cons_of_mem _ hmem)
      · -- the second slash is the first glyph of what the line mode walked over
        cases body with
        | nil => cases hs
        | cons k body =>
          obtain ⟨rfl, rfl⟩ := List.cons.inj hs
          exact .line (fun hmem => hbody (List.mem_cons_of_mem _ hmem)) hgap
    split at hnext
    · rename_i hc
      cases hnext
      rw [Bool.and_eq_true] at hc
      obtain rfl := Glyph.eq_char_of_is hc.1 (by decide)
      obtain ⟨k, body, s, hs, hbody, hgap⟩ := h
      obtain rfl := eq_char_of_startsWith hc.2 hs (by decide)
      rw [hs]
      exact .block hbody hgap
    · cases hnext
  | line =>
    simp only [next?] at hnext
    split at hnext
    · cases hnext
      obtain rfl := Glyph.eq_char_of_is (by assumption) (by decide : '\n' ≠ Glyph.replacement)
      exact .inr ⟨[], _, rfl, List.not_mem_nil, .blank (by decide) h⟩
    · rename_i hg
      cases hnext
      have hne : (.char '\n' : Glyph) ≠ g := by
        rintro rfl
        exact hg rfl
      rcases h with ⟨hlast, hu⟩ | ⟨body, s, hs, hbody, hgap⟩
      · exact .inl ⟨hlast, by simp [hne, hu]⟩
      · exact .inr ⟨g :: body, s, by rw [hs]; rfl, by simp [hne, hbody], hgap⟩
  | opening =>
    cases hnext
    obtain ⟨body, s, hs, hbody, hgap⟩ := h
    exact ⟨g, body, s, by rw [hs], hbody, hgap⟩
  | block =>
    simp only [next?] at hnext
    split at hnext
    · rename_i hc
      cases hnext
      rw [Bool.and_eq_true] at hc
      obtain rfl := Glyph.eq_char_of_is hc.1 (by decide)
      obtain ⟨k, s, hs, hgap⟩ := h
      obtain rfl := eq_char_of_startsWith hc.2 hs (by decide)
      exact ⟨[], s, by rw [hs]; rfl, by simp, hgap⟩
    · rename_i hc
      cases hnext
      obtain ⟨body, s, hs, hbody, hgap⟩ := h
      refine ⟨g :: body, s, by rw [hs]; rfl, fun hinfix => ?_, hgap⟩
      -- an end of the comment inside would start with `g`, but the scan looked for it there
      rcases List.infix_cons_iff.1 hinfix with hpre | hin
      · obtain ⟨hg, u, rfl⟩ := List.cons_prefix_cons.1 hpre
        obtain rfl := hg
        refine hc ?_
        cases rest with
        | nil => simp at hs
        | cons k v =>
          have : k = .char '/' := by
            cases hn : (scan .block (k :: v)).length with
            | zero => rw [hn] at hs; simp at hs
            | succ n => rw [hn] at hs; exact (List.cons.inj hs).1
          rw [this]; rfl
      · exact hbody hin
  | closing =>
    cases hnext
    exact ⟨g, _, rfl, h⟩

/-- Only between comments can the scan stop before the end. -/
theorem Mode.eq_blank_of_next? (h : m.next? g rest = Option.none) : m = .blank := by
  cases m with
  | blank => rfl
  | line => simp only [next?] at h; split at h <;> cases h
  | opening => cases h
  | block => simp only [next?] at h; split at h <;> cases h
  | closing => cases h

/-- What a closed gap ends at is neither a blank nor the start of a comment. Otherwise the scan
would have gone on. -/
theorem next?_of_drop {x more : Text} (hc : (scan m x).closed = true)
    (hd : x.drop (scan m x).length = g :: more) : Mode.blank.next? g more = Option.none := by
  induction x generalizing m with
  | nil => rw [List.drop_nil] at hd; cases hd
  | cons h x ih =>
    rw [scan] at hc hd
    cases hn : m.next? h x with
    | none =>
      rw [hn] at hd
      obtain ⟨rfl, rfl⟩ := List.cons.inj hd
      rwa [← Mode.eq_blank_of_next? hn]
    | some r =>
      rw [hn] at hc hd
      dsimp only [extend] at hc hd
      rw [Nat.add_comm, List.drop_succ_cons] at hd
      exact ih hc hd

/-- **The scan walks over what its mode says**, if it finds every block comment closed. By
induction on the text, step by step. -/
theorem walks_scan (m : Mode) (t : Text) (h : (scan m t).closed = true) :
    m.Walks (t.drop (scan m t).length = []) (t.take (scan m t).length) := by
  induction t generalizing m with
  | nil =>
    cases m with
    | blank => exact .nil
    | line => exact .inl ⟨rfl, List.not_mem_nil⟩
    | _ => cases h
  | cons g rest ih =>
    cases hnext : m.next? g rest with
    | none =>
      obtain rfl := Mode.eq_blank_of_next? hnext
      simp only [scan, hnext, none, List.take_zero]
      exact .nil
    | some r =>
      obtain ⟨m', newline⟩ := r
      have hlen : (scan m (g :: rest)).length = (scan m' rest).length + 1 := by
        simp [scan, hnext, extend, Nat.add_comm]
      have hclosed : (scan m' rest).closed = true := by
        simpa [scan, hnext, extend] using h
      rw [hlen]
      exact (ih m' hclosed).cons hnext

/-- **A gap is made of blanks and whole comments.** -/
theorem isGap_before (t : Text) (h : (before t).closed = true) :
    IsGap (t.drop (before t).length = []) (t.take (before t).length) :=
  walks_scan .blank t h

end Gap

end Exemplar
