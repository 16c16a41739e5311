import Exemplar.Proofs.Grammar.Sources
import Exemplar.Proofs.Grammar.Termination

/-!
# Where a source breaks

A source can break twice: in its tokens, where something is left open, and in their order.
Lexing alone finds the first, and a parser comes to it only if it reads or looks that far, so
which of the two it reports depends on its way. The two agree all the same. A parser that
succeeds has come to the end, and nothing is left open there; one that stops reports what lexing
reports, or a token, and where something is left open that token was cut off before it.

All this is known of parsers that only move forward. What stops them is at a place they have
come to, and they come to the end only where nothing is left open. What has to be seen of the
two parsers for types and units is that they read to the end when they succeed, and do not give
up for want of fuel.
-/

namespace Exemplar

open Exemplar.Tree Exemplar.Parser

variable {α : Type} {source : Text} {c : Cursor} {e : Halt} {file : String}

namespace Cursor

/-- **The current token of a visited place** is one of the tokens of the source, or the end of a
source in which nothing is left open. -/
theorem Visited.current_cases (hc : c.Visited) :
    (c.current ∈ (TokenStream.lex c.source).tokens ∧ c.current.isEof = false) ∨
      (c.current = (TokenStream.lex c.source).ending.token ∧ c.current.isEof = true ∧
        (TokenStream.lex c.source).ending.fault = none) := by
  cases hr : c.rest with
  | nil =>
    refine .inr ⟨?_, by rw [hc.current_isEof, hr]; rfl, ?_⟩
    · rw [current_of_nil hr, hc.ending]
    · rw [← hc.ending]
      exact hc.fault_of_nil hr
  | cons t more =>
    have hmem : t ∈ c.rest := hr ▸ List.mem_cons_self
    rw [current_of_cons hr]
    exact .inl ⟨hc.suffix.subset hmem, hc.isEof_eq_false hmem⟩

end Cursor

/-- A token of a source starts no later than its tokens end. -/
theorem TokenStream.start_le_ending {t : Token} (ht : t ∈ (lex source).tokens) :
    t.start.offset ≤ (lex source).ending.token.start.offset := by
  have hordered := Cursor.ordered_startOf source
  have hascends :=
    (List.pairwise_append.1 hordered.ascends).2.2 t ht _ (List.mem_singleton_self _)
  exact Nat.le_trans (hordered.token t ht).1 hascends

namespace Parser

/-- **Why a run on a source stops**: what is left open at the end of its tokens, a complaint
about the current token of a visited place, or a breakdown. -/
theorem stopped_of_run {p : Parser α} [Moves p] (h : run p source = .error e) :
    (∃ fault, (TokenStream.lex source).ending.fault = some fault ∧
      e = .lexical fault (TokenStream.lex source).ending.range?) ∨
    (∃ complaint, ∃ c : Cursor, c.Visited ∧ c.source = source ∧
      e = .unexpected complaint c.current) ∨
    (∃ cause, e = .crash cause) ∨ e = .exhausted := by
  rcases run_eq_error h with hlexical | ⟨hnil, h⟩
  · exact .inl hlexical
  have hstops := Moves.stopsFrom_of_error h
  cases e with
  | lexical fault range =>
    obtain ⟨hf, rfl⟩ := hstops
    exact .inl ⟨fault, hf, rfl⟩
  | unexpected complaint t =>
    obtain ⟨c, hreach, rfl, hend⟩ := hstops
    have hsource : c.source = source := hreach.source
    refine .inr (.inl ⟨complaint, c, ⟨hsource ▸ hreach, fun hr => ?_⟩, hsource, rfl⟩)
    rw [hreach.ending]
    exact (hend hr).elim hnil id
  | crash cause => exact .inr (.inr (.inl ⟨cause, rfl⟩))
  | exhausted => exact .inr (.inr (.inr rfl))

/-- A run that comes to the end of a source leaves nothing open. It has asked at the end. -/
theorem fault_of_run {p : Parser α} [Moves p] {a : α} (h : run p source = .ok a)
    (hend : ∀ {c : Cursor}, c.Visited → p (startOf source) = .ok (a, c) → c.rest = []) :
    (TokenStream.lex source).ending.fault = none := by
  obtain ⟨hnil, c, hc⟩ := run_eq_ok h
  have hstart : (startOf source).Visited := ⟨.refl _, hnil⟩
  have hvisited := hstart.of_ok hc
  have hfault := hvisited.fault_of_nil (hend hvisited hc)
  rwa [Moves.ending_of_ok hc] at hfault

/-- A type is read to the end of the source. -/
theorem rest_of_wholeType {t : TypeExpr} {c' : Cursor} (hc : c'.Visited)
    (h : wholeType c = .ok (t, c')) : c'.rest = [] := by
  obtain ⟨t', c₁, -, h⟩ := bind_eq_ok.1 h
  rw [isEof_bind, ite_run] at h
  split at h
  · rename_i heof
    cases h
    rw [hc.current_isEof, List.isEmpty_iff] at heof
    exact heof
  · cases h

/-- A unit is read to the end of the source. -/
theorem rest_of_sourceUnit {name : String} {u : SourceUnit} {c' : Cursor} (hc : c'.Visited)
    (h : sourceUnit name c = .ok (u, c')) : c'.rest = [] := by
  rw [sourceUnit, here_bind] at h
  obtain ⟨found, c₁, hloop, h⟩ := bind_eq_ok.1 h
  rw [spanFrom_bind] at h
  cases h
  rw [collect_run] at hloop
  obtain ⟨c₂, hlast⟩ := last_of_collectUpTo _ hloop
  rw [nextStatement, isEof_bind, ite_run] at hlast
  split at hlast
  · rename_i heof
    cases hlast
    rw [hc.current_isEof, List.isEmpty_iff] at heof
    exact heof
  · obtain ⟨o, c₃, -, hnone⟩ := bind_eq_ok.1 hlast
    cases hnone

end Parser

/-- **Reading a source agrees with lexing it** about where the source breaks. -/
structure TokenStream.Agrees (s : TokenStream) (file : String) (outcome : Except Halt α) :
    Prop where
  /-- If the source is read, lexing it reports nothing. -/
  of_ok : ∀ a, outcome = .ok a → s.diagnostic? = none
  /-- If lexing reports something, reading stops. It breaks down, or reports the same for the
  file, or reports a token that was cut off before the place where lexing stopped. -/
  of_diagnostic : ∀ d, s.diagnostic? = some d → ∃ e, outcome = .error e ∧
    ((∃ cause, e = .crash cause) ∨ e.diagnostic? file = some { d with file := file } ∨
      ∃ d' t, e.diagnostic? file = some d' ∧ d'.kind = .grammatical ∧ d'.range = some t.span ∧
        t ∈ s.tokens ∧ t.start.offset ≤ s.ending.token.start.offset)
  /-- A report about the tokens is the one of lexing. -/
  lexical : ∀ e d, outcome = .error e → e.diagnostic? file = some d → d.kind = .lexical →
    s.diagnostic?.map (fun d => { d with file := file }) = some d
  /-- A report about their order is about one of them, whose text it quotes, or about the end of
  a source in which nothing is left open. -/
  grammatical : ∀ e d, outcome = .error e → e.diagnostic? file = some d → d.kind = .grammatical →
    ∃ t, d.range = some t.span ∧
      ((t ∈ s.tokens ∧ d.found = t.text.quoted) ∨
        (t = s.ending.token ∧ t.isEof = true ∧ s.diagnostic? = none ∧ d.found = "end of file"))

/-- Lexing reports what is left open. -/
theorem TokenStream.diagnostic?_eq_none_iff {s : TokenStream} :
    s.diagnostic? = none ↔ s.ending.fault = none := Option.map_eq_none_iff

/-- A parser that reads to the end and gives up nowhere agrees with lexing. -/
theorem TokenStream.agrees_run {p : Parser α} [Moves p] (file : String)
    (hend : ∀ {a : α} {c : Cursor}, c.Visited → p (startOf source) = .ok (a, c) → c.rest = [])
    (hmore : run p source ≠ .error .exhausted) : (lex source).Agrees file (run p source) where
  of_ok a h := diagnostic?_eq_none_iff.2 (fault_of_run h hend)
  of_diagnostic d hd := by
    obtain ⟨fault, hf, rfl⟩ := Option.map_eq_some_iff.1 hd
    cases h : run p source with
    -- A run that succeeds has come to the end, where nothing is left open.
    | ok a => rw [fault_of_run h hend] at hf; cases hf
    | error e =>
      refine ⟨e, rfl, ?_⟩
      obtain ⟨fault', hf', rfl⟩ | ⟨complaint, c, hc, rfl, rfl⟩ | hcrash | rfl := stopped_of_run h
      · rw [hf] at hf'
        cases hf'
        exact .inr (.inl rfl)
      · -- something is left open at the end, so the place is not the end
        obtain ⟨hmem, -⟩ := hc.current_cases.resolve_right fun hlast => by
          rw [hlast.2.2] at hf
          cases hf
        exact .inr (.inr ⟨_, c.current, rfl, rfl, rfl, hmem, start_le_ending hmem⟩)
      · exact .inl hcrash
      · exact absurd h hmore
  -- Of the ways to stop only one makes a report of each of the two kinds.
  lexical e d h hd hkind := by
    obtain ⟨fault, hf, rfl⟩ | ⟨complaint, c, hc, rfl, rfl⟩ | ⟨cause, rfl⟩ | rfl :=
      stopped_of_run h
    · cases hd
      rw [diagnostic?, hf]
      rfl
    · cases hd
      cases hkind
    · cases hd
    · cases hd
  grammatical e d h hd hkind := by
    obtain ⟨fault, hf, rfl⟩ | ⟨complaint, c, hc, rfl, rfl⟩ | ⟨cause, rfl⟩ | rfl :=
      stopped_of_run h
    · cases hd
      cases hkind
    · cases hd
      refine ⟨c.current, rfl, hc.current_cases.imp ?_ ?_⟩
      · rintro ⟨hmem, heof⟩
        exact ⟨hmem, by rw [Token.describe, if_neg (Bool.eq_false_iff.1 heof)]⟩
      · rintro ⟨hlast, heof, hf⟩
        exact ⟨hlast, heof, diagnostic?_eq_none_iff.2 hf, by rw [Token.describe, if_pos heof]⟩
    · cases hd
    · cases hd

/-- **Lexing and parsing agree on where a source breaks.** Whatever the bytes of a source are, a
type or a unit is read from it only if its tokens can be cut off to the end. If they cannot,
reading stops; unless it breaks down, it reports the same as lexing, or a token that was cut off
before. And every report of the grammar points at one token and quotes it, or at the end of the
file. -/
theorem parse_agrees_with_lex (bytes : List UInt8) (file name : String) :
    (TokenStream.lex (Text.decode bytes)).Agrees file (TypeExpr.parse (Text.decode bytes)) ∧
      (TokenStream.lex (Text.decode bytes)).Agrees file
      (SourceUnit.parse name (Text.decode bytes)) :=
  ⟨TokenStream.agrees_run file rest_of_wholeType fun h =>
      not_tolerated_exhausted _ (tolerated_of_run (X := fun _ => False) h),
    TokenStream.agrees_run file rest_of_sourceUnit fun h =>
      not_tolerated_exhausted _ (tolerated_of_run (X := Cursor.BreaksDown) h)⟩

/-- The parser complains about the semicolon before it comes to the string that is left open. -/
example : (TypeExpr.parse (Text.ofString "A ; 'c")).map (fun _ => ()) =
    .error
      (.unexpected .trailingToken
        ⟨.punct, Text.ofString ";", ⟨⟨1, 2, 2⟩, ⟨1, 3, 3⟩⟩, false⟩) := by
  decide +kernel

end Exemplar
