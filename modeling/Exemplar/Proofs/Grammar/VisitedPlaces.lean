import Exemplar.Proofs.Grammar.Moves
import Exemplar.Proofs.Token.Partition

/-!
# The places a run comes to

A run on a source starts before its first token and comes to other places by consuming tokens.
It never stands at the end of a source in which something is left open there, for consuming the
last token, or starting where there is none, reports that first. `Cursor.Visited` says both of a
cursor, and every run that starts at such a place stops at one.

What is true of the tokens of a source is true of what is ahead of a visited place: no token is
the end, so a word or a bracket that stands there is a token that can be consumed, and the
places of the tokens ascend and stay inside the source.
-/

namespace Exemplar

open Exemplar.Parser (startOf)

namespace Cursor

/-- A place that a run on a source can come to. -/
structure Visited (c : Cursor) : Prop where
  /-- It is reached from before the first token. -/
  reaches : (startOf c.source).Reaches c
  /-- At the end nothing is left open. -/
  fault_of_nil : c.rest = [] → c.ending.fault = none

variable {c c' : Cursor}

theorem Reaches.source (h : c.Reaches c') : c'.source = c.source := by
  induction h with
  | refl => rfl
  | past _ _ ih => exact ih

theorem Reaches.length_le (h : c.Reaches c') : c'.rest.length ≤ c.rest.length :=
  h.suffix.length_le

/-- Who stays where they are has as many tokens ahead as before. -/
theorem Reaches.eq_of_length_le (h : c.Reaches c') (hl : c.rest.length ≤ c'.rest.length) :
    c' = c := by
  cases h with
  | refl => rfl
  | past hr h =>
    have := h.length_le
    rw [past_rest] at this
    rw [hr, List.length_cons] at hl
    omega

/-- A place that is come to from a visited one is visited. -/
theorem Visited.of_passes (hc : c.Visited) (h : c.Passes c') : c'.Visited where
  reaches := by
    rw [h.reaches.source]
    exact hc.reaches.trans h.reaches
  fault_of_nil hr := by
    rw [h.reaches.ending]
    exact (h.fault_of_nil hr).elim hc.fault_of_nil id

/-- A run stops at a place that is visited if it starts at one. -/
theorem Visited.of_ok {α : Type} {p : Parser α} [Parser.Moves p] {a : α} (hc : c.Visited)
    (h : p c = .ok (a, c')) : c'.Visited :=
  hc.of_passes (Parser.Moves.passes_of_ok h)

/-! ## The tokens ahead -/

/-- What is ahead is the end of the tokens of the source, and they end as those do. -/
theorem Visited.suffix (hc : c.Visited) : c.rest <:+ (TokenStream.lex c.source).tokens :=
  hc.reaches.suffix

theorem Visited.ending (hc : c.Visited) : c.ending = (TokenStream.lex c.source).ending :=
  hc.reaches.ending

/-- No token ahead is the end of the source. -/
theorem Visited.isEof_eq_false (hc : c.Visited) {t : Token} (ht : t ∈ c.rest) :
    t.isEof = false := by
  obtain ⟨front, more, hsplit⟩ := List.append_of_mem (hc.suffix.subset ht)
  exact ((TokenStream.regular_lexFrom none .start c.source).tokens hsplit).not_eof

/-- Unless something is left open, the tokens end with the source. -/
theorem Visited.ending_clean (hc : c.Visited) (hf : c.ending.fault = none) : c.ending.Clean := by
  rw [hc.ending] at hf ⊢
  exact (TokenStream.regular_lexFrom none .start c.source).ending hf

theorem Visited.clean (hc : c.Visited) (hr : c.rest = []) : c.ending.Clean :=
  hc.ending_clean (hc.fault_of_nil hr)

/-- At the end the current token is the end of the source. -/
theorem Visited.current_isEof (hc : c.Visited) : c.current.isEof = c.rest.isEmpty := by
  cases hr : c.rest with
  | nil => simp [current_of_nil hr, Token.isEof, (hc.clean hr).kind]
  | cons t more =>
    rw [current_of_cons hr]
    exact hc.isEof_eq_false (by rw [hr]; exact List.mem_cons_self)

/-- A token that is not the end of the source is left. -/
theorem Visited.rest_ne_nil (hc : c.Visited) (h : c.current.isEof = false) : c.rest ≠ [] := by
  rw [hc.current_isEof, List.isEmpty_eq_false_iff] at h
  exact h

end Cursor

/-! ## Words that are no end -/

namespace Token

variable {t : Token}

theorem isEof_of_is {w : String} (h : t.is w = true) : t.isEof = false := by
  simp only [is, Bool.and_eq_true, Bool.or_eq_true, beq_iff_eq] at h
  rcases h.1 with h | h <;> simp [isEof, h]

theorem isEof_of_isIdent (h : t.isIdent = true) : t.isEof = false := by
  rw [isIdent, beq_iff_eq] at h
  simp [isEof, h]

theorem isEof_of_isOpener (h : t.isOpener = true) : t.isEof = false := by
  simp only [isOpener, Bool.and_eq_true, beq_iff_eq] at h
  simp [isEof, h.1]

end Token

/-! ## Where the tokens stand -/

namespace Cursor

/-- The places of the tokens ahead ascend, from where the last one stopped to the end of the
source. -/
structure Ordered (c : Cursor) : Prop where
  /-- The token consumed last stops inside the source. -/
  lastStop_le : c.lastStop.offset ≤ c.source.byteSize
  /-- A token stops inside the source, and not before it starts. -/
  token : ∀ t ∈ c.rest, t.start.offset ≤ t.stop.offset ∧ t.stop.offset ≤ c.source.byteSize
  /-- No token starts before the one consumed last stops. -/
  lastStop_le_start : ∀ t ∈ c.rest ++ [c.ending.token], c.lastStop.offset ≤ t.start.offset
  /-- No token starts before an earlier one stops. -/
  ascends : (c.rest ++ [c.ending.token]).Pairwise (fun t u => t.stop.offset ≤ u.start.offset)

variable {c c' : Cursor}

theorem ordered_startOf (source : Text) : (startOf source).Ordered := by
  have h := (TokenStream.covers_lexFrom none .start source).partitions
    (show Position.start.offset = ([] : List UInt8).length from rfl)
  rw [List.nil_append] at h
  refine ⟨Nat.zero_le _, fun t ht => ?_, fun _ _ => Nat.zero_le _, h.ordered⟩
  have htext := h.text t (List.mem_append_left _ ht)
  rw [Text.length_encode] at htext
  exact ⟨htext.1, htext.2.1⟩

/-- The current token starts no earlier than the token consumed last stops. -/
theorem Ordered.lastStop_le_current (hc : c.Ordered) :
    c.lastStop.offset ≤ c.current.start.offset := by
  refine hc.lastStop_le_start _ ?_
  cases hr : c.rest with
  | nil => simp [current_of_nil hr]
  | cons t more => simp [current_of_cons hr]

/-- **Consuming a token keeps the order.** -/
theorem Ordered.past {t : Token} {more : List Token} (hc : c.Ordered) (hr : c.rest = t :: more) :
    (c.past t more).Ordered := by
  obtain ⟨-, htoken, -, hascends⟩ := hc
  rw [hr, List.cons_append, List.pairwise_cons] at hascends
  exact ⟨(htoken t (by simp [hr])).2, fun u hu => htoken u (hr ▸ List.mem_cons_of_mem _ hu),
    hascends.1, hascends.2⟩

/-- A run keeps the order, and what it consumed last stops no earlier than what was consumed last
before it. -/
theorem Reaches.ordered (h : c.Reaches c') (hc : c.Ordered) :
    c'.Ordered ∧ c.lastStop.offset ≤ c'.lastStop.offset := by
  induction h with
  | refl => exact ⟨hc, Nat.le_refl _⟩
  | @past c c' t more hr _ ih =>
    obtain ⟨hc', hle⟩ := ih (hc.past hr)
    refine ⟨hc', Nat.le_trans ?_ hle⟩
    have hstart := hc.lastStop_le_current
    rw [current_of_cons hr] at hstart
    exact Nat.le_trans hstart (hc.token t (by simp [hr])).1

theorem Visited.ordered (hc : c.Visited) : c.Ordered :=
  (hc.reaches.ordered (ordered_startOf _)).1

end Cursor

end Exemplar
