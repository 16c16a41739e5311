import Exemplar.Proofs.Grammar.CommonTokens
import Exemplar.Proofs.Grammar.ClosedBrackets

/-!
# A text inside brackets

A type that is read up to the end of a text can also stand inside a larger type, in front of a
comma, a closing bracket, or one of the two marks of a condition. The rules of the grammar look
one or two tokens ahead, so they see what comes behind the text, and one of them looks for a
bracket however far it is.

`Cursor.Enclosed` relates a place in the text to the same place in the larger one. The two have
the same tokens ahead (`Cursor.Alongside`), so what the first parser does on the text is
simulated by what the second does there (`Persists`), as far as the rules for all such relations
go. A rule that could mistake what comes behind for a part of its own stands in brackets, and it
is enough that it persists where it stops before the end of the text. An initial value is
skipped without knowing where it ends, and the scan for the end of an angle bracket in it could
go on behind the text, so it must start inside of brackets as well. That is a scope of its own,
`Scope.bracketed`: it is handed on from a run to its parts if they close what they open
(`Shuts`).
-/

namespace Exemplar

open Exemplar.Brackets

/-! ## What comes behind a type -/

/-- The words that may come behind a type inside a larger one. -/
def fences : List Word :=
  [",", ")", "]", ">", "?", ":"].flatMap
      (fun s => [⟨.punct, .ofString s, false⟩, ⟨.punct, .ofString s, true⟩])
    ++ [Word.eof false, .eof true]

theorem eof_mem_fences (b : Bool) : .eof b ∈ fences := by cases b <;> decide

/-! ## Places in the text and in the larger one -/

namespace Cursor

variable {c c' d : Cursor} {more : List Token}

/-- `c'` stands in a larger text where `c` stands in a text of its own, behind which come the
tokens `more`. -/
structure Enclosed (more : List Token) (c c' : Cursor) : Prop where
  visited : c.Visited
  /-- Every bracket of the text has its partner if anything comes behind it. -/
  balanced : more ≠ [] → level 0 (TokenStream.lex c.source).tokens = some 0
  clean : c.ending.Clean
  clean' : c'.ending.Clean
  /-- The tokens ahead are those of the text, and what comes behind. -/
  rest : ∃ front, c'.rest = front ++ more ∧ SameBare c.rest front
  /-- It starts with what may come behind a type. -/
  next : (more.head?.getD c'.ending.token).word ∈ fences
  /-- The tokens consumed last are the same, if the text has been started. -/
  last : c.last ≠ none → SameBare c.last c'.last

namespace Enclosed

/-- **Both consume a token.** -/
theorem past (h : Enclosed more c c') {t : Token} {ts : List Token} (hr : c.rest = t :: ts) :
    ∃ t' ts', c'.rest = t' :: ts' ∧ SameBare t t' ∧
      Enclosed more (c.past t ts) (c'.past t' ts') := by
  obtain ⟨front, hr', hfront⟩ := h.rest
  rw [hr] at hfront
  obtain ⟨hnil, -⟩ | ⟨_, t', _, ts', hcons, rfl, ht, hts⟩ := hfront.nil_or_cons
  · cases hnil
  obtain ⟨rfl, rfl⟩ := List.cons.inj hcons
  refine ⟨t', ts' ++ more, hr', ht, ⟨h.visited.past h.clean hr, h.balanced, h.clean, h.clean',
    ⟨ts', rfl, hts⟩, h.next, fun _ => ?_⟩⟩
  exact inferInstanceAs (SameBare (some t) (some t'))

/-- At the end of the text, what comes behind is left. -/
theorem rest_of_nil (h : Enclosed more c c') (hr : c.rest = []) : c'.rest = more := by
  obtain ⟨front, hr', hfront⟩ := h.rest
  rw [hr] at hfront
  obtain ⟨-, rfl⟩ | ⟨_, _, _, _, hcons, -⟩ := hfront.nil_or_cons
  · exact hr'
  · cases hcons

end Enclosed

/-- **A text and the larger one have the same tokens ahead**, and what comes behind the text
starts with a word that may come behind a type. -/
instance : Alongside fences (Enclosed more) where
  eof := eof_mem_fences
  visited h := h.visited
  clean h := h.clean
  clean' h := h.clean'
  past h hr := h.past hr
  word_mem {c c'} h hr := by
    rw [Cursor.current, h.rest_of_nil hr]
    exact h.next

namespace Enclosed

theorem suffix (h : Enclosed more c c') : c.rest <:+ (TokenStream.lex c.source).tokens :=
  h.visited.suffix

/-- Where nothing comes behind the text, both see the same words. -/
theorem is_look_eq (h : Enclosed [] c c') (w : String) (i : Nat) :
    (c.look i).is w = (c'.look i).is w := by
  by_cases hi : i < c.rest.length
  · exact Alongside.look_eq_of_lt h (f := (·.is w)) (fun _ => rfl) hi
  · obtain ⟨front, hr', hfront⟩ := h.rest
    rw [List.append_nil] at hr'
    rw [look, List.getElem?_eq_none (Nat.le_of_not_lt hi), look, hr',
      List.getElem?_eq_none (hfront.length_eq ▸ Nat.le_of_not_lt hi), Option.getD_none,
      Option.getD_none, h.clean.is_eq_false, h.clean'.is_eq_false]

/-- An opening bracket has its partner inside the text if anything comes behind it: otherwise the
depth behind it would not come back to zero. -/
theorem exists_matching (h : Enclosed more c c') (hm : more ≠ []) {w : String}
    (hw : w ∈ ["(", "[", "\x7b"]) (hb : c.current.is w = true) :
    ∃ i, matching 0 c.rest = some i := by
  have ho := h.visited.isOpener_of_is hw hb
  obtain ⟨t, ts, hr⟩ :=
    List.exists_cons_of_ne_nil (h.visited.rest_ne_nil (Token.isEof_of_isOpener ho))
  rw [current_of_cons hr] at ho
  rw [hr]
  obtain ⟨n, hn⟩ := exists_level_of_suffix (h.balanced hm) h.suffix
  rw [hr, level, if_pos ho] at hn
  obtain ⟨i, hi⟩ := Brackets.exists_matching Nat.one_pos hn
  exact ⟨i + 1, by rw [matching, if_pos ho, hi]; rfl⟩

/-- **A closing bracket is found on both sides, and at the same place.** -/
theorem matching_eq (h : Enclosed more c c') {w : String} (hw : w ∈ ["(", "[", "\x7b"])
    (hb : c.current.is w = true) : matching 0 c'.rest = matching 0 c.rest := by
  obtain ⟨front, hr', hfront⟩ := h.rest
  have heq : matching 0 c.rest = matching 0 front := hfront.congr (matching_bare 0)
  by_cases hm : more = []
  · rw [hr', hm, List.append_nil, heq]
  · obtain ⟨i, hi⟩ := h.exists_matching hm hw hb
    rw [hr', hi]
    exact matching_append_of_some (heq ▸ hi)

/-- **Inside of brackets, what is known of an angle bracket is known at the same place.** The
scan stops at the bracket that closes the group it starts in, so it does not run out of
tokens. -/
theorem matchingAngle_eq (h : Enclosed more c c') (hi : c.Inside) :
    matchingAngle 0 0 c'.rest = matchingAngle 0 0 c.rest := by
  obtain ⟨front, hr', hfront⟩ := h.rest
  have heq : matchingAngle 0 0 c.rest = matchingAngle 0 0 front :=
    hfront.congr (matchingAngle_bare 0 0)
  by_cases hm : more = []
  · rw [hr', hm, List.append_nil, heq]
  · obtain ⟨n, hn⟩ := hi (h.balanced hm)
    have hne : matchingAngle 0 0 c.rest ≠ .ranOut := matchingAngle_ne_ranOut (Nat.succ_pos n) hn
    rw [hr', heq]
    exact matchingAngle_append (heq ▸ hne)

end Enclosed

/-- Once something has been consumed, it stays so. -/
theorem Reaches.last_ne_none (h : c.Reaches d) (hl : c.last ≠ none) : d.last ≠ none := by
  induction h with
  | refl => exact hl
  | past _ _ ih => exact ih (Option.some_ne_none _)

end Cursor

/-! ## Persisting -/

namespace Parser

open Cursor (Enclosed)

-- The search for an instance is as deep as the rule is long.
set_option synthInstance.maxSize 100000

variable {α β : Type} [HasPlaces α] [HasPlaces β] {k : Scope}
  {c c' d : Cursor} {more : List Token}

/-- **A run on a text persists inside a larger one**, if it is in the scope. -/
abbrev Persists (more : List Token) (k : Scope) (p p' : Parser α) : Prop :=
  Simulates (Enclosed more) (Enclosed more) k p p'

/-- A run that starts inside of brackets and stops where a token of the text is left. -/
def Scope.bracketed : Scope := fun c d => c.Inside ∧ d.rest ≠ []

instance : Scope.Splits .bracketed := ⟨fun h => And.imp_right h.rest_ne_nil⟩

/-- A parser that closes what it opens stays inside of brackets. -/
instance Upholds.bracketed (p : Parser α) [Moves p] [hp : ∀ f, Shuts 0 f p] :
    Upholds .bracketed p where
  admits hc h := And.imp_left fun hi =>
    hi.of_shuts (Moves.reaches_of_ok h) ((hp fun _ => true).shuts hc rfl h)

namespace Persists

instance (priority := low) of_inside (p p' : Parser α) [h : Persists more .inside p p'] :
    Persists more .bracketed p p' where
  endsLike hc hp hd := h.endsLike hc hp hd.2

section Sequences

variable {p p' : Parser α} {f f' : α → Parser β}

instance bind_bracketed [∀ a, Moves (f a)] [Upholds .bracketed p]
    [Persists more .bracketed p p']
    [∀ r : BarePair α, Persists more .bracketed (f r.left) (f' r.right)] :
    Persists more .bracketed (p >>= f) (p' >>= f') :=
  Simulates.bind_splits fun h => h.visited

/-- What stands behind an opening bracket stays inside of it up to a token that is needed. -/
theorem expect_open {w : String} (hw : w ∈ ["(", "[", "\x7b"]) {j : Scope}
    (hk : ∀ {c c₁ d : Cursor}, c₁.rest ≠ [] → k c d → j c₁ d) [Moves p]
    [hp : Persists more .bracketed p p'] [∀ a, Needs (f a)]
    [hf : ∀ r : BarePair α, Persists more j (f r.left) (f' r.right)] :
    Persists more k (expect w >>= fun _ => p >>= f) (expect w >>= fun _ => p' >>= f') where
  endsLike {c c' d b} hc h hd := by
    refine EndsLike.bind (R := Enclosed more) h
      (fun h _ => Simulates.again .anywhere hc h trivial)
      fun _ hc₁ h₁ h => ?_
    obtain ⟨hb, t, hadvance⟩ := expect_eq_ok h₁
    obtain ⟨ts, hr, rfl⟩ := advance_inv (hc.visited.rest_ne_nil (Token.isEof_of_is hb)) hadvance
    have ho := hc.visited.isOpener_of_is hw hb
    rw [Cursor.current_of_cons hr] at ho
    have hi : (c.past t ts).Inside := .past hc.visited hr ho
    refine EndsLike.bind (R := Enclosed more) h (fun h₂ h₃ => hp.endsLike hc₁ h₂ ⟨hi, ?_⟩)
      fun ha hc₂ h₂ h₃ => ?_
    · exact Needs.rest_ne_nil (hc₁.visited.of_ok h₂) h₃
    · exact (hf ⟨_, _, ha⟩).endsLike hc₂ h₃ (hk (Needs.rest_ne_nil (hc₁.visited.of_ok h₂) h₃) hd)

end Sequences

section Lists

variable {item item' : Parser α}

instance (w : String) [Moves item] [∀ f, Shuts 0 f item] [Persists more .bracketed item item'] :
    Persists more .bracketed (itemBefore w item) (itemBefore w item') := by
  unfold itemBefore; infer_instance

instance (w : String) [Moves item] [∀ f, Shuts 0 f item] [Persists more .bracketed item item'] :
    Persists more .bracketed (commaList w item) (commaList w item') := by
  unfold commaList; infer_instance

end Lists

/-! ### What is skipped -/

instance : Inert fences (·.is "(") := {}

/-- Whether an expression goes on is the same on both sides once something has been consumed. -/
theorem atBreak_eq {b : Bool} (hc : Enclosed more c c') (hr : c.rest ≠ []) (hl : c.last ≠ none)
    (h : atBreak c = .ok (b, c)) : atBreak c' = .ok (b, c') := by
  have hcurrent := Cursor.Alongside.current hc hr
  have hpair : SameBare (c.last, c.current) (c'.last, c'.current) :=
    have := hc.last hl
    inferInstance
  have hacross : continuesAcross c.last c.current = continuesAcross c'.last c'.current :=
    hpair.congr (f := fun p => continuesAcross p.1 p.2) fun p => continuesAcross_bare p.1 p.2
  exact Simulates.atBreak_congr hcurrent hacross.symm h

/-- **An expression persists inside of brackets**, behind the token that it follows. Each of its
rounds starts inside of the brackets that the expression stands in, because what a round skips
closes what it opens; and behind a first token the line breaks are the same on both sides. -/
theorem skipExpression_enclosed {a : Unit} (hc : Enclosed more c c') (hi : c.Inside)
    (hl : c.last ≠ none) (h : skipExpression c = .ok (a, d)) (hd : d.rest ≠ []) :
    EndsLike (Enclosed more) (skipExpression c') a d := by
  show EndsLike (Enclosed more)
    ((Parser.iterate expressionRound true >>= fun _ => pure ()) c') a d
  refine EndsLike.bind (R := Enclosed more) h (fun {b c₁} h₁ h₂ => ?_)
    fun _ hc₁ _ h => Simulates.again .anywhere hc₁ h trivial
  have hd₁ : c₁.rest ≠ [] := by
    obtain ⟨-, rfl⟩ := pure_eq_ok.1 h₂
    exact hd
  refine Simulates.iterateUpTo_of (fun _ c => c.Inside ∧ c.last ≠ none) ?_
    (Nat.succ_le_succ (Cursor.Alongside.length_le hc)) (SameBare.refl true) hc ⟨hi, hl⟩ h₁
  rintro s s' o c c' c₂ ⟨hs⟩ hc ⟨hi, hl⟩ h hreach
  obtain rfl : s = s' := hs
  have hround := Moves.reaches_of_ok h
  have hr : c.rest ≠ [] := hround.rest_ne_nil (hreach.rest_ne_nil hd₁)
  obtain ⟨o', c₂', h', ho, hc₂⟩ := Simulates.expressionRound_of hc hr (atBreak_eq hc hr hl)
    (fun _ => by rw [hc.matchingAngle_eq hi]) h
  have hinside : c₂.Inside :=
    (Upholds.admits (k := .bracketed) hc.visited h ⟨hi, hd₁⟩).1
  exact ⟨o', c₂', h', ho, fun _ => hc₂, fun _ _ => ⟨hc₂, hinside, hround.last_ne_none hl⟩⟩

end Persists

end Parser

end Exemplar
