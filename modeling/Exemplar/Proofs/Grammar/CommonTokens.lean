import Exemplar.Proofs.Grammar.WordReadings
import Exemplar.Proofs.Grammar.BracketScans
import Exemplar.Proofs.Grammar.Simulation
import Exemplar.Proofs.Grammar.Termination
import Exemplar.Proofs.Types.SameTokenTypes

/-!
# Two cursors with the same tokens ahead

The two places that are compared in a simulation have the same tokens ahead of them, up to the
end of the first source. What comes behind that end in the second one is not arbitrary either:
it starts with one of a few words. `Alongside words R` says this of a relation `R`, and what the
parsers that look and consume do on both sides follows from it alone.

Where a token is left, both sides see the same one, and both consume it. At the end of the first
source they see different things, the end there and one of `words` here. A test that none of
these passes (`Inert`) has the same answer all the same, and one that answers alike for all of
them (`Blunt`) may even be asked at the token behind the last one. So a rule that only asks such
tests is simulated from anywhere, and any other rule is simulated from where a token is left.
From the rules of `Simulation` and those in this module the judgment is found for most of the
grammar; what is left to each relation are the tests that do tell its words apart, and the scans
that look arbitrarily far ahead.
-/

namespace Exemplar

open Exemplar.Brackets

/-! ## Tests and what comes behind

A test on a token looks at its word, or it could not be passed alike in two sources. -/

/-- Tokens that are the same without places pass the same blind tests. -/
theorem Blind.congr {f : Token → Bool} (hf : Blind f) {t u : Token} (h : SameBare t u) :
    f t = f u := by
  have heq : t.word.token = u.word.token := h.eq
  rw [hf t, heq, ← hf u]

/-- Tokens that are the same without their places differ in their spans alone. -/
theorem SameBare.exists_span {t u : Token} (h : SameBare t u) :
    ∃ s, u = { t with span := s } := by
  obtain ⟨tk, tx, ts, tn⟩ := t
  obtain ⟨uk, ux, us, un⟩ := u
  obtain ⟨rfl, rfl, -, rfl⟩ := Token.mk.inj h.eq
  exact ⟨us, rfl⟩

/-- Tokens with the same words are the same apart from their places. -/
theorem sameBare_of_words {l l' : List Token} (h : l.map Token.word = l'.map Token.word) :
    SameBare l l' := by
  have key : ∀ l : List Token, bare l = (l.map Token.word).map Word.token := fun l => by
    rw [List.map_map]
    rfl
  exact ⟨by rw [key, h, ← key]⟩

/-- The token at the end of a source, if nothing is left open there, has the word of the end. -/
theorem Ending.Clean.word_eq {e : Ending} (h : e.Clean) :
    e.token.word = .eof e.token.newlineBefore := by
  rw [Token.word, h.kind, h.text]
  rfl

/-- A test that looks at the words of tokens, and that none of the given words passes. -/
class Inert (words : List Word) (f : Token → Bool) : Prop where
  blind : Blind f := by exact fun _ => rfl
  eq_false : ∀ w ∈ words, f w.token = false := by decide

/-- A test that looks at the words of tokens, and that does not tell the given words apart. -/
class Blunt (words : List Word) (f : Token → Bool) : Prop where
  blind : Blind f := by exact fun _ => rfl
  alike : ∀ w ∈ words, ∀ v ∈ words, f w.token = f v.token := by decide

instance (priority := low) Blunt.of_inert (words : List Word) (f : Token → Bool)
    [h : Inert words f] : Blunt words f where
  blind := h.blind
  alike w hw v hv := (h.eq_false w hw).trans (h.eq_false v hv).symm

/-! ## The two places

Consuming a token is the only way to move, so what is said of two related places goes from each
pair to the next one, until the first source ends. -/

namespace Cursor

variable {c c' : Cursor}

/-- The token so many places behind the current one. -/
def look (c : Cursor) (i : Nat) : Token := (c.rest[i]?).getD c.ending.token

/-- The current token is no place behind itself. -/
theorem look_zero : c.look 0 = c.current := by
  rw [look, ← List.head?_eq_getElem?]
  rfl

/-- Behind a token that is consumed, the others are one place nearer. -/
theorem look_succ {t : Token} {more : List Token} (hr : c.rest = t :: more) (i : Nat) :
    c.look (i + 1) = (c.past t more).look i := by
  rw [look, hr, List.getElem?_cons_succ]
  rfl

/-- What is seen ahead and is no end of the source is a token that is left. -/
theorem lt_of_look (hc : c.ending.Clean) {i : Nat} (h : (c.look i).isEof = false) :
    i < c.rest.length := by
  by_cases hi : i < c.rest.length
  · exact hi
  · rw [look, List.getElem?_eq_none (Nat.le_of_not_lt hi), Option.getD_none, Token.isEof,
      hc.kind] at h
    cases h

/-- A token behind the current one that is no end of the source is a token that is left. -/
theorem two_of_second (he : c.ending.Clean) (hr : c.rest ≠ []) {g : Token → Bool}
    [Parser.OnTokens g] (hg : g c.second = true) : ∃ t u more, c.rest = t :: u :: more := by
  obtain ⟨t, more, hcons⟩ := List.exists_cons_of_ne_nil hr
  cases more with
  | cons u more => exact ⟨t, u, more, hcons⟩
  | nil =>
    have heof := Parser.OnTokens.isEof_eq_false hg
    rw [second_of_cons hcons, current_of_nil (c := c.past t []) rfl, past_ending, Token.isEof,
      he.kind] at heof
    cases heof

/-- Behind a token that is consumed nothing is left open either. -/
theorem Visited.past (hc : c.Visited) (he : c.ending.Clean) {t : Token} {more : List Token}
    (hr : c.rest = t :: more) : (c.past t more).Visited :=
  ⟨hc.reaches.trans (.past hr (.refl _)), fun _ => he.fault⟩

/-- **A relation between places of two runs that have the same tokens ahead**, up to the end of
the first one; what comes behind them in the second starts with one of `words`. Consuming a
token keeps the relation, and that is all that makes it move: every other fact about the two
places is an induction over `past`. -/
class Alongside (words : outParam (List Word)) (R : Cursor → Cursor → Prop) : Prop where
  /-- The end of a source is one of the words. -/
  eof : ∀ b, .eof b ∈ words := by decide
  /-- The first place is one that a run comes to. -/
  visited : ∀ {c c' : Cursor}, R c c' → c.Visited
  /-- Nothing is left open in the first source. -/
  clean : ∀ {c c' : Cursor}, R c c' → c.ending.Clean
  /-- Nothing is left open in the second source. -/
  clean' : ∀ {c c' : Cursor}, R c c' → c'.ending.Clean
  /-- Both consume the same token. -/
  past : ∀ {c c' : Cursor} {t : Token} {more : List Token}, R c c' → c.rest = t :: more →
    ∃ t' more', c'.rest = t' :: more' ∧ SameBare t t' ∧ R (c.past t more) (c'.past t' more')
  /-- At the end of the first source one of the words comes next in the second. -/
  word_mem : ∀ {c c' : Cursor}, R c c' → c.rest = [] → c'.current.word ∈ words

namespace Alongside

variable {words : List Word} {R : Cursor → Cursor → Prop} [hR : Alongside words R]

include hR

/-- Where a token is left, both see the same. -/
theorem current (h : R c c') (hr : c.rest ≠ []) : SameBare c.current c'.current := by
  obtain ⟨t, ts, hr⟩ := List.exists_cons_of_ne_nil hr
  obtain ⟨t', ts', hr', ht, -⟩ := past h hr
  rwa [current_of_cons hr, current_of_cons hr']

/-- The tokens ahead of the second place are those ahead of the first, and some more. By
induction on the tokens of the first. -/
theorem exists_front (h : R c c') :
    ∃ front back, c'.rest = front ++ back ∧ SameBare c.rest front := by
  induction hl : c.rest generalizing c c' with
  | nil => exact ⟨[], c'.rest, rfl, inferInstance⟩
  | cons t more ih =>
    obtain ⟨t', more', hr', ht, hpast⟩ := past h hl
    obtain ⟨front, back, hfront, hsame⟩ := ih hpast rfl
    exact ⟨t' :: front, back, by rw [hr', show more' = _ from hfront]; rfl, inferInstance⟩

/-- So there are as many at least. -/
theorem length_le (h : R c c') : c.rest.length ≤ c'.rest.length := by
  obtain ⟨front, back, hr', hfront⟩ := exists_front h
  rw [hr', List.length_append, hfront.length_eq]
  exact Nat.le_add_right _ _

/-- **What is looked at with a blunt test is the same** up to the end of the first source, and
just behind it. The induction is on the distance: behind a token that is left, the two places
behind it are related as well. -/
theorem look_eq (h : R c c') (f : Token → Bool) [hf : Blunt words f] {i : Nat}
    (hi : i ≤ c.rest.length) : f (c.look i) = f (c'.look i) := by
  induction i generalizing c c' with
  | zero =>
    rw [look_zero, look_zero]
    by_cases hr : c.rest = []
    · rw [Cursor.current_of_nil hr, hf.blind c.ending.token, hf.blind c'.current,
        (clean h).word_eq]
      exact hf.alike _ (eof R _) _ (word_mem h hr)
    · exact hf.blind.congr (current h hr)
  | succ i ih =>
    cases hr : c.rest with
    | nil => rw [hr] at hi; exact absurd hi (Nat.not_succ_le_zero _)
    | cons t ts =>
      obtain ⟨t', ts', hr', -, hpast⟩ := past h hr
      rw [hr, List.length_cons] at hi
      rw [look_succ hr, look_succ hr']
      exact ih hpast (Nat.le_of_succ_le_succ hi)

/-- Before the end of the first source, what is looked at is the same for any test. -/
theorem look_eq_of_lt (h : R c c') {f : Token → Bool} (hf : Blind f) {i : Nat}
    (hi : i < c.rest.length) : f (c.look i) = f (c'.look i) := by
  induction i generalizing c c' with
  | zero =>
    rw [look_zero, look_zero]
    exact hf.congr (current h (List.ne_nil_of_length_pos hi))
  | succ i ih =>
    obtain ⟨t, ts, hr⟩ := List.exists_cons_of_length_pos (Nat.lt_of_le_of_lt (Nat.zero_le _) hi)
    obtain ⟨t', ts', hr', -, hpast⟩ := past h hr
    rw [hr, List.length_cons] at hi
    rw [look_succ hr, look_succ hr']
    exact ih hpast (Nat.lt_of_succ_lt_succ hi)

/-- At the end of the first source neither side passes an inert test. -/
theorem inert_of_nil (h : R c c') (hr : c.rest = []) (f : Token → Bool) [hf : Inert words f] :
    f c.current = false ∧ f c'.current = false := by
  constructor
  · rw [Cursor.current_of_nil hr, hf.blind c.ending.token, (clean h).word_eq]
    exact hf.eq_false _ (eof R _)
  · rw [hf.blind c'.current]
    exact hf.eq_false _ (word_mem h hr)

end Alongside

end Cursor

/-! ## Parsers that look and consume

Of each primitive it is said from where it is simulated: from anywhere, if it cannot tell what
comes behind the first source from its end, and else from where a token is left. Rules for
sequences then see to it that a rule that needs a token is reached with one. -/

namespace Parser

open Cursor (Alongside look_zero look_succ two_of_second)
open Cursor.Alongside (look_eq look_eq_of_lt inert_of_nil)

-- The search for an instance is as deep as the rule is long.
set_option synthInstance.maxSize 100000

variable {α β σ : Type} [HasPlaces α] [HasPlaces β] [HasPlaces σ] {words : List Word}
  {R S : Cursor → Cursor → Prop} [hR : Alongside words R] {k : Scope} {c c' d : Cursor}

/-- Looking ahead answers the token there. -/
theorem peek_look (hf : c.ending.fault = none) {i : Nat} (hi : 0 < i) :
    peek i c = .ok (c.look i, c) := by
  obtain ⟨n, rfl⟩ := Nat.exists_eq_add_one.2 hi
  exact peek_run hf n

namespace Still

instance (w : String) : Still (is w) := ⟨fun h => by cases h; rfl⟩

instance : Still isEof := ⟨fun h => by cases h; rfl⟩

instance (f g h : Token → Bool) : Still (ahead₃ f g h) := by unfold ahead₃; infer_instance

instance : Still reachEnd := ⟨fun h => (reachEnd_eq_ok h).2⟩

instance : Still closingBracket := by
  unfold closingBracket
  refine @Still.bind _ _ _ _ inferInstance fun c => ?_
  split <;> infer_instance

instance : Still closingAngle := by
  unfold closingAngle
  refine @Still.bind _ _ _ _ inferInstance fun c => ?_
  split <;> infer_instance

end Still

namespace Definite

instance (w : String) : Definite (is w) :=
  inferInstanceAs (Definite (do return (← current).is w))

instance : Definite isIdent := inferInstanceAs (Definite (do return (← current).isIdent))

end Definite

namespace Simulates

include hR

/-! ### Parts that need a token -/

/-- A parser that complains at the end need only be simulated from a token. -/
theorem of_needs {p p' : Parser α} [Needs p] [h : Simulates R S .token p p'] :
    Simulates R S .anywhere p p' where
  endsLike hc hp _ := h.endsLike hc hp (Needs.rest_ne_nil (Alongside.visited hc) hp)

/-- What comes before a token that is needed stops where that token is left. -/
instance (priority := low) bind_needs [k.Starts] {p p' : Parser α}
    {f f' : α → Parser β} [Moves p]
    [hp : Simulates R R .inside p p'] [∀ a, Needs (f a)]
    [hf : ∀ r : BarePair α, Simulates R S .token (f r.left) (f' r.right)] :
    Simulates R S k (p >>= f) (p' >>= f') where
  endsLike hc h _ :=
    have hvisited := Alongside.visited hc
    EndsLike.bind h
      (fun h₁ h₂ => hp.endsLike hc h₁ (Needs.rest_ne_nil (hvisited.of_ok h₁) h₂))
      (fun ha hc₁ h₁ h₂ =>
        (hf ⟨_, _, ha⟩).endsLike hc₁ h₂ (Needs.rest_ne_nil (hvisited.of_ok h₁) h₂))

/-! ### The current token -/

instance : Simulates R R .token current current where
  endsLike {c c' d t} hc h hr := by
    cases h
    exact ⟨c'.current, c', rfl, Alongside.current hc hr, hc⟩

instance : Simulates R R .token advance advance where
  endsLike {c c' d t} hc h hr := by
    obtain ⟨ts, hcons, rfl⟩ := advance_inv hr h
    obtain ⟨t', ts', hr', ht, hpast⟩ := Alongside.past hc hcons
    exact ⟨t', _, advance_run_cons hr' (Alongside.clean' hc).fault, ht, hpast⟩

/-- A test on the current token that only looks is simulated from a token. -/
theorem test_token {f : Token → Bool} (hf : Blind f) {p : Parser Bool}
    (hp : ∀ c, p c = .ok (f c.current, c)) : Simulates R R .token p p where
  endsLike {c c' d b} hc h hr := by
    rw [hp] at h
    cases h
    exact ⟨_, c', hp c', ⟨hf.congr (Alongside.current hc hr)⟩, hc⟩

/-- An inert test is simulated from anywhere. -/
theorem test_anywhere (f : Token → Bool) [hf : Inert words f] {p : Parser Bool}
    (hp : ∀ c, p c = .ok (f c.current, c)) : Simulates R R .anywhere p p :=
  have := test_token (R := R) hf.blind hp
  of_token_of_nil fun {c c' _ _} hc hr _ h => by
    have hw := inert_of_nil hc hr f
    rw [hp] at h
    cases h
    exact ⟨_, c', hp c', ⟨hw.1.trans hw.2.symm⟩, hc⟩

instance (w : String) : Simulates R R .token (is w) (is w) :=
  test_token (f := (·.is w)) (fun _ => rfl) fun _ => rfl

instance (w : String) [Inert words (·.is w)] : Simulates R R .anywhere (is w) (is w) :=
  test_anywhere (·.is w) fun _ => rfl

instance : Simulates R R .token isIdent isIdent :=
  test_token (f := (·.isIdent)) (fun _ => rfl) fun _ => rfl

instance : Simulates R R .token isEof isEof :=
  test_token (f := (·.isEof)) (fun _ => rfl) fun _ => rfl

instance current_pure {f : Token → Bool} [Inert words f] :
    Simulates R R .anywhere (current >>= fun t => pure (f t))
      (current >>= fun t => pure (f t)) :=
  test_anywhere f fun _ => rfl

instance (w : String) : Simulates R R .token (got w) (got w) := by unfold got; infer_instance

instance (w : String) [Inert words (·.is w)] : Simulates R R .anywhere (got w) (got w) :=
  of_token_of_nil fun {c c' _ _} hc hr _ h => by
    have hw := inert_of_nil hc hr (·.is w)
    rw [got_run, if_neg (by rw [hw.1]; exact Bool.false_ne_true)] at h
    cases h
    refine ⟨false, c', ?_, inferInstance, hc⟩
    rw [got_run, if_neg (by rw [hw.2]; exact Bool.false_ne_true)]

instance (w : String) : Simulates R R .anywhere (expect w) (expect w) :=
  have : Simulates R R .token (expect w) (expect w) := by unfold expect; infer_instance
  of_needs

/-! ### Looking further ahead -/

omit hR in
/-- Looking at three tokens. -/
theorem ahead₃_run (he : c.ending.Clean) (f g h : Token → Bool) :
    ahead₃ f g h c = .ok (f c.current && g c.second && h (c.look 2), c) := by
  unfold ahead₃
  rw [bind_of_ok (ahead_run he f g)]
  cases f c.current && g c.second with
  | false => rfl
  | true =>
    rw [if_pos rfl, bind_of_ok (peek_look he.fault (Nat.succ_pos 1))]
    rfl

/-- Two tests are passed alike where a token is left, if the second is blunt: it may be asked
behind the end of the first source. -/
theorem ahead_eq (f g : Token → Bool) (hc : R c c') (hr : c.rest ≠ []) (hf : Blind f)
    [Blunt words g] : (f c.current && g c.second) = (f c'.current && g c'.second) := by
  have hg : g c.second = g c'.second := look_eq hc g (i := 1) (List.length_pos_iff.2 hr)
  rw [hf.congr (Alongside.current hc hr), hg]

/-- Two tests are passed alike where two tokens are left, whatever they ask. -/
theorem ahead_eq_of_lt (f g : Token → Bool) (hc : R c c')
    (hlt : 1 < c.rest.length) (hf : Blind f)
    (hg : Blind g) : (f c.current && g c.second) = (f c'.current && g c'.second) := by
  have hr : c.rest ≠ [] := List.length_pos_iff.1 (Nat.zero_lt_of_lt hlt)
  have hsecond : g c.second = g c'.second := look_eq_of_lt hc hg hlt
  rw [hf.congr (Alongside.current hc hr), hsecond]

omit hR in
/-- Three tests are passed alike if the first two are, and the third is where they are passed. -/
theorem ahead₃_eq (f g h : Token → Bool)
    (hfg : (f c.current && g c.second) = (f c'.current && g c'.second))
    (hh : f c.current = true → g c.second = true → h (c.look 2) = h (c'.look 2)) :
    (f c.current && g c.second && h (c.look 2))
      = (f c'.current && g c'.second && h (c'.look 2)) := by
  rw [← hfg]
  cases htwo : f c.current && g c.second with
  | false => rw [Bool.false_and, Bool.false_and]
  | true =>
    obtain ⟨hfirst, hsecond⟩ := Bool.and_eq_true_iff.1 htwo
    rw [hh hfirst hsecond]

/-- Looking at three tokens is simulated where they pass three tests alike. -/
theorem ahead₃_of {f g h : Token → Bool} {b : Bool} (hc : R c c')
    (heq : (f c.current && g c.second && h (c.look 2))
      = (f c'.current && g c'.second && h (c'.look 2)))
    (hrun : ahead₃ f g h c = .ok (b, d)) : EndsLike R (ahead₃ f g h c') b d := by
  rw [ahead₃_run (Alongside.clean hc)] at hrun
  cases hrun
  exact ⟨_, c', ahead₃_run (Alongside.clean' hc) f g h, ⟨heq⟩, hc⟩

instance (f g : Token → Bool) [hf : Inert words f] [Blunt words g] :
    Simulates R R .token (ahead f g) (ahead f g) where
  endsLike {c c' d b} hc h hr := by
    rw [ahead_run (Alongside.clean hc)] at h
    cases h
    exact ⟨_, c', ahead_run (Alongside.clean' hc) f g, ⟨ahead_eq f g hc hr hf.blind⟩, hc⟩

/-- Tests that are passed alike where a token is left are passed nowhere else, if the first of
them is inert. -/
instance (priority := low) ahead_anywhere (f g : Token → Bool) [Inert words f]
    [Simulates R R .token (ahead f g) (ahead f g)] :
    Simulates R R .anywhere (ahead f g) (ahead f g) :=
  of_token_of_nil fun {c c' _ _} hc hr _ h => by
    have hf := inert_of_nil hc hr f
    rw [ahead_run (Alongside.clean hc), hf.1, Bool.false_and] at h
    cases h
    refine ⟨false, c', ?_, inferInstance, hc⟩
    rw [ahead_run (Alongside.clean' hc), hf.2, Bool.false_and]

instance (priority := low) ahead₃_anywhere (f g h : Token → Bool) [Inert words f]
    [Simulates R R .token (ahead₃ f g h) (ahead₃ f g h)] :
    Simulates R R .anywhere (ahead₃ f g h) (ahead₃ f g h) :=
  of_token_of_nil fun {c c' _ _} hc hr _ hrun => by
    have hf := inert_of_nil hc hr f
    rw [ahead₃_run (Alongside.clean hc), hf.1, Bool.false_and, Bool.false_and] at hrun
    cases hrun
    refine ⟨false, c', ?_, inferInstance, hc⟩
    rw [ahead₃_run (Alongside.clean' hc), hf.2, Bool.false_and, Bool.false_and]

/-! ### Behind a test

A test that only looks, and that the end of a source does not pass, promises a token. So what
stands behind it need only be simulated from there. -/

section Tests

variable {test test' : Parser Bool} {p p' q q' : Parser β} {f : Token → Bool}

instance (priority := high) bind_definite [k.Starts] [Still test] [Definite test]
    [htest : Simulates R R k test test'] [hp : Simulates R S .token p p']
    [hq : Simulates R S k q q'] :
    Simulates R S k (test >>= fun b => if b = true then p else q)
      (test' >>= fun b => if b = true then p' else q') where
  endsLike {c c' d a} hc h hd := by
    refine EndsLike.bind h (fun h₁ _ => htest.endsLike hc h₁ (Scope.Starts.admits hd)) ?_
    rintro b b' c₁ c₁' ⟨hb⟩ hc₁ h₁ h₂
    obtain rfl : b = b' := hb
    obtain rfl := Still.eq_of_ok h₁
    cases b with
    | false => exact hq.endsLike hc₁ h₂ hd
    | true =>
      have hvisited := Alongside.visited hc
      exact hp.endsLike hc₁ h₂
        ((Definite.of_true hvisited h₁).resolve_right (Nat.lt_irrefl _))

/-- Two tokens that are no end of the source are there to be consumed. -/
instance (priority := high) bind_ahead [k.Starts] {g : Token → Bool} [OnTokens f] [OnTokens g]
    [hfg : Simulates R R k (ahead f g) (ahead f g)] {r r' : Token → Parser β}
    [hr : ∀ t : BarePair Token, Simulates R S .token (r t.left) (r' t.right)]
    [hq : Simulates R S k q q'] :
    Simulates R S k (ahead f g >>= fun b => if b = true then advance >>= r else q)
      (ahead f g >>= fun b => if b = true then advance >>= r' else q') where
  endsLike {c c' d a} hc h hd := by
    refine EndsLike.bind h (fun h₁ _ => hfg.endsLike hc h₁ (Scope.Starts.admits hd)) ?_
    rintro b b' c₁ c₁' ⟨hb⟩ hc₁ h₁ h₂
    obtain rfl : b = b' := hb
    obtain rfl := Still.eq_of_ok h₁
    cases b with
    | false => exact hq.endsLike hc₁ h₂ hd
    | true =>
      have hne := (Definite.of_true (Alongside.visited hc) h₁).resolve_right (Nat.lt_irrefl _)
      have hclean := Alongside.clean hc
      rw [ahead_run hclean] at h₁
      have hg : g c₁.second = true :=
        (Bool.and_eq_true_iff.1 (Prod.mk.inj (Except.ok.inj h₁)).1).2
      obtain ⟨t, u, ts, hcons⟩ := two_of_second hclean hne hg
      refine EndsLike.bind (R := R) h₂ (fun h₃ _ => again .token hc₁ h₃ hne) ?_
      intro x x' c₂ c₂' hx hc₂ h₃ h₄
      obtain ⟨ts', hcons', rfl⟩ := advance_inv hne h₃
      rw [hcons] at hcons'
      cases hcons'
      exact (hr ⟨_, x', hx⟩).endsLike hc₂ h₄ (List.cons_ne_nil _ _)

/-- Behind a word that is consumed nothing more is needed, and otherwise a token is. -/
instance (priority := high) bind_got_needs {w : String} [Needs q]
    [hp : Simulates R S .anywhere p p'] [hq : Simulates R S .token q q'] :
    Simulates R S .anywhere (got w >>= fun b => if b = true then p else q)
      (got w >>= fun b => if b = true then p' else q') :=
  have : Simulates R S .token (got w >>= fun b => if b = true then p else q)
      (got w >>= fun b => if b = true then p' else q') := {
    endsLike := fun {c c' d a} hc h hr => by
      refine EndsLike.bind (R := R) h (fun h₁ _ => again .token hc h₁ hr) ?_
      rintro b b' c₁ c₁' ⟨hb⟩ hc₁ h₁ h₂
      obtain rfl : b = b' := hb
      have hvisited := (Alongside.visited hc).of_ok h₁
      cases b with
      | true => exact hp.endsLike hc₁ h₂ trivial
      | false => exact hq.endsLike hc₁ h₂ (Needs.rest_ne_nil (p := q) hvisited h₂) }
  of_needs

instance current_ite [Inert words f] [OnTokens f] [Simulates R R .token p p']
    [Simulates R R .anywhere q q'] :
    Simulates R R .anywhere (current >>= fun t => if f t = true then p else q)
      (current >>= fun t => if f t = true then p' else q') where
  endsLike hc h hd :=
    have key : Simulates R R .anywhere
        ((current >>= fun t => pure (f t)) >>= fun b => if b = true then p else q)
        ((current >>= fun t => pure (f t)) >>= fun b => if b = true then p' else q') :=
      inferInstance
    key.endsLike hc h hd

end Tests

/-! ### Loops and lists

A loop is simulated round by round. Its rounds are as many as the first source needs, and the
second has more tokens, so it has rounds enough. From which places a round must be simulated
depends on how the loop goes on: one that starts with a test may come to the end of the first
source after any round, and one that is not the last part of a rule always finds a token. -/

section Loops

variable {next next' : Parser (Option α)} {item item' : Parser α} {test test' : Parser Bool}
  {body body' : Parser Unit} {step step' : σ → Parser (Option σ)}

instance collect [k.Splits] [Moves next] [Upholds k next] [Simulates R R k next next'] :
    Simulates R R k (collect next) (collect next') where
  endsLike hc h hd := (collectUpTo (fun h => Alongside.visited h)
    (Nat.succ_le_succ (Alongside.length_le hc))).endsLike hc h hd

instance iterate [k.Splits] [∀ s, Moves (step s)] [∀ s, Upholds k (step s)]
    [hstep : ∀ r : BarePair σ, Simulates R R k (step r.left) (step' r.right)] {s s' : σ}
    [hs : SameBare s s'] : Simulates R R k (iterate step s) (iterate step' s') where
  endsLike {c c' d a} hc h hd := by
    -- a round is in the scope because the run from where it starts to the end of the loop is
    refine iterateUpTo_of (fun _ c => k c d) ?_ (Nat.succ_le_succ (Alongside.length_le hc)) hs hc
      hd h
    intro s s' o c c' c₁ hs hc hd h₁ hreach
    obtain ⟨o', c₁', h₁', ho, hc₁⟩ :=
      (hstep ⟨s, s', hs⟩).endsLike hc h₁ (Scope.Splits.left hreach hd)
    exact ⟨o', c₁', h₁', ho, fun _ => hc₁,
      fun _ _ => ⟨hc₁, Upholds.admits (Alongside.visited hc) h₁ hd⟩⟩

instance [Simulates R R .anywhere test test'] [Simulates R R .anywhere body body'] :
    Simulates R R .anywhere (onceMore test body) (onceMore test' body') := by
  unfold onceMore; infer_instance

instance [Moves test] [Moves body]
    [Simulates R R .anywhere (onceMore test body) (onceMore test' body')] :
    Simulates R R .anywhere (whileDo test body) (whileDo test' body') := by
  unfold whileDo; infer_instance

instance [Moves test] [Moves body] [Simulates R R .inside test test']
    [Simulates R R .inside body body'] :
    Simulates R R .inside (whileDo test body) (whileDo test' body') := by
  unfold whileDo onceMore; infer_instance

instance (w : String) [Inert words (·.is w)] [Simulates R R .anywhere item item'] :
    Simulates R R .anywhere (itemBehind w item) (itemBehind w item') := by
  unfold itemBehind; infer_instance

instance [Inert words (·.is ",")] [Moves item] [Simulates R R .anywhere item item'] :
    Simulates R R .anywhere (commaList₁ item) (commaList₁ item') := by
  unfold commaList₁; infer_instance

instance (w : String) [Moves item] [Simulates R R .inside item item'] :
    Simulates R R .inside (itemBefore w item) (itemBefore w item') := by
  unfold itemBefore; infer_instance

instance (w : String) [Moves item] [Simulates R R .inside item item'] :
    Simulates R R .inside (commaList w item) (commaList w item') := by
  unfold commaList; infer_instance

end Loops

/-! ### Groups

A group is measured by a scan of the tokens ahead. If the scan finds the end of the group in the
first source, it finds it in the second as well, for it does not look behind that end. -/

/-- Tokens of the first source are consumed on both sides. -/
theorem advanceBy_of {n : Nat} {a : Unit} (hc : R c c') (hn : n ≤ c.rest.length)
    (h : advanceBy n c = .ok (a, d)) : EndsLike R (advanceBy n c') a d := by
  induction n generalizing c c' with
  | zero =>
    cases h
    exact ⟨(), c', rfl, inferInstance, hc⟩
  | succ n ih =>
    obtain ⟨t, c₁, h₁, h₂⟩ := bind_eq_ok.1 h
    have hr : c.rest ≠ [] := List.length_pos_iff.1 (Nat.lt_of_lt_of_le (Nat.succ_pos n) hn)
    obtain ⟨ts, hcons, rfl⟩ := advance_inv hr h₁
    obtain ⟨t', ts', hr', -, hpast⟩ := Alongside.past hc hcons
    rw [hcons, List.length_cons] at hn
    obtain ⟨a', d', h', ha, hd⟩ := ih hpast (Nat.le_of_succ_le_succ hn) h₂
    refine ⟨a', d', ?_, ha, hd⟩
    show (advance >>= fun _ => advanceBy n) c' = _
    rw [bind_of_ok (advance_run_cons hr' (Alongside.clean' hc).fault), h']

instance : Simulates R R .anywhere skipGroup skipGroup where
  endsLike {c c' d a} hc h _ := by
    unfold skipGroup at h ⊢
    rw [get_bind] at h
    obtain ⟨front, back, hr, hfront⟩ := Alongside.exists_front hc
    cases hscan : scanGroup? c.rest with
    | none => rw [hscan] at h; cases h
    | some found =>
      rw [hscan] at h
      rw [hfront.congr scanGroup?_bare] at hscan
      cases found with
      | closed n =>
        obtain ⟨hscan', hn⟩ := scanGroup?_append_of_closed (b := back) hscan
        rw [EndsLike, get_bind, hr, hscan']
        exact advanceBy_of hc (hfront.length_eq ▸ hn) h
      | mismatch n =>
        obtain ⟨_, _, -, h₂⟩ := bind_eq_ok.1 h
        cases h₂
      | unclosed w =>
        obtain ⟨_, _, -, h₂⟩ := bind_eq_ok.1 h
        obtain ⟨_, _, -, h₃⟩ := bind_eq_ok.1 h₂
        cases h₃

end Simulates

/-! ### Scans that look for a closing bracket

These look as far ahead as it takes, so whether the two sides agree depends on what comes behind
the first source. Where the scan itself agrees, so do the rules that start with it. -/

/-- Where nothing is left open, the search is the scan. -/
theorem closingBracket_run (hf : c.ending.fault = none) :
    closingBracket c = .ok (matching 0 c.rest, c) := by
  unfold closingBracket
  rw [get_bind]
  cases matching 0 c.rest with
  | some i => rfl
  | none => dsimp only; rw [bind_of_ok (reachEnd_run hf)]; rfl

/-- Also for angle brackets, where it may be blocked. -/
theorem closingAngle_run (hf : c.ending.fault = none) :
    closingAngle c = .ok ((matchingAngle 0 0 c.rest).found?, c) := by
  unfold closingAngle
  rw [get_bind]
  cases matchingAngle 0 0 c.rest with
  | found i => rfl
  | blocked => rfl
  | ranOut => dsimp only; rw [bind_of_ok (reachEnd_run hf)]; rfl

namespace Simulates

include hR

/-- What stands behind a closing bracket passes a blunt test on both sides or on neither. -/
theorem behindBracket_eq (f : Token → Bool) [Blunt words f] (hc : R c c')
    (hm : matching 0 c'.rest = matching 0 c.rest) :
    (matching 0 c.rest).any (fun i => f (c.look (i + 1)))
      = (matching 0 c'.rest).any (fun i => f (c'.look (i + 1))) := by
  rw [hm]
  cases hfound : matching 0 c.rest with
  | none => rfl
  | some i => exact look_eq hc f (i := i + 1) (matching_lt hfound)

/-- The same for a closing angle bracket. -/
theorem behindAngle_eq (f : Token → Bool) [Blunt words f] (hc : R c c')
    (hm : (matchingAngle 0 0 c'.rest).found? = (matchingAngle 0 0 c.rest).found?) :
    (matchingAngle 0 0 c.rest).found?.any (fun i => f (c.look (i + 1)))
      = (matchingAngle 0 0 c'.rest).found?.any (fun i => f (c'.look (i + 1))) := by
  rw [hm]
  cases hfound : (matchingAngle 0 0 c.rest).found? with
  | none => rfl
  | some i =>
    exact look_eq hc f (i := i + 1) (matchingAngle_lt (AngleScan.found?_eq_some hfound))

/-- What is skipped at an angle bracket is the same on both sides: the type arguments up to the
bracket that closes it if a call comes behind, and the bracket alone otherwise. -/
theorem skipTypeArguments_of [Inert words (·.is "(")] {a : Unit} (hc : R c c')
    (hl : c.current.is "<" = true)
    (hm : (matchingAngle 0 0 c'.rest).found? = (matchingAngle 0 0 c.rest).found?)
    (h : skipTypeArguments c = .ok (a, d)) : EndsLike R (skipTypeArguments c') a d := by
  have hclean := Alongside.clean hc
  have hclean' := Alongside.clean' hc
  have hone : 1 ≤ c.rest.length :=
    List.length_pos_iff.2 ((Alongside.visited hc).rest_ne_nil (Token.isEof_of_is hl))
  unfold skipTypeArguments at h ⊢
  rw [bind_of_ok (closingAngle_run hclean.fault)] at h
  rw [EndsLike, bind_of_ok (closingAngle_run hclean'.fault), hm]
  -- Either no bracket closes the one here, or it is known which one does, and then what comes
  -- behind it is asked.
  cases hfound : (matchingAngle 0 0 c.rest).found? with
  | none =>
    rw [hfound] at h
    exact advanceBy_of hc hone h
  | some i =>
    have hlt := matchingAngle_lt (AngleScan.found?_eq_some hfound)
    rw [hfound] at h
    dsimp only at h ⊢
    rw [bind_of_ok (peek_look hclean.fault (Nat.succ_pos i)), ite_run] at h
    rw [bind_of_ok (peek_look hclean'.fault (Nat.succ_pos i)), ite_run,
      ← look_eq hc (·.is "(") (i := i + 1) hlt]
    split at h
    · rename_i hp
      rw [if_pos hp]
      exact advanceBy_of hc hlt h
    · rename_i hp
      rw [if_neg hp]
      exact advanceBy_of hc hone h

omit hR in
/-- A line break ends an expression on both sides or on neither, if the expression would go on
across it on both sides or on neither. -/
theorem atBreak_congr {b : Bool} (hcurrent : SameBare c.current c'.current)
    (hacross : continuesAcross c'.last c'.current = continuesAcross c.last c.current)
    (h : atBreak c = .ok (b, c)) : atBreak c' = .ok (b, c') := by
  have hline : c.current.newlineBefore = c'.current.newlineBefore :=
    hcurrent.congr (f := Token.newlineBefore) fun _ => rfl
  obtain rfl : (c.current.newlineBefore && !continuesAcross c.last c.current) = b :=
    (Prod.mk.inj (Except.ok.inj h)).1
  show Except.ok (c'.current.newlineBefore && !continuesAcross c'.last c'.current, c') = _
  rw [hacross, hline]

/-- **A round of an expression** that starts where a token is left is simulated, if the two
sides agree on whether the expression ends at a line break there, and on the angle bracket that
closes one there. What the round does is decided by the current token, which is the same on both
sides. -/
theorem expressionRound_of [Inert words (·.is "(")] {first : Bool} {o : Option Bool}
    (hc : R c c') (hr : c.rest ≠ [])
    (hbreak : ∀ {b}, atBreak c = .ok (b, c) → atBreak c' = .ok (b, c'))
    (hangle : c.current.is "<" = true →
      (matchingAngle 0 0 c'.rest).found? = (matchingAngle 0 0 c.rest).found?)
    (h : expressionRound first c = .ok (o, d)) : EndsLike R (expressionRound first c') o d := by
  obtain ⟨s, hs⟩ := (Alongside.current hc hr).exists_span
  obtain ⟨b, hb⟩ : ∃ b, atBreak c = .ok (b, c) := ⟨_, rfl⟩
  unfold expressionRound at h ⊢
  rw [current_bind] at h
  rw [EndsLike, current_bind, hs]
  -- each question is put to the current token, which is the same but for its span
  show EndsLike R ((if c.current.isEof = true then pure none else atBreak >>= fun b =>
    if (!first && b) = true then pure none
    else if (c.current.is "," || c.current.is ";" || c.current.isCloser) = true then pure none
    else if c.current.isOpener = true then do skipGroup; pure (some false)
    else if c.current.is "<" = true then do skipTypeArguments; pure (some false)
    else do let _ ← advance; pure (some false) : Parser (Option Bool)) c') o d
  refine EndsLike.ite h (fun _ h => again .token hc h hr) fun _ h => ?_
  rw [bind_of_ok hb] at h
  rw [EndsLike, bind_of_ok (hbreak hb)]
  refine EndsLike.ite h (fun _ h => again .token hc h hr) fun _ h => ?_
  refine EndsLike.ite h (fun _ h => again .token hc h hr) fun _ h => ?_
  refine EndsLike.ite h (fun _ h => again .token hc h hr) fun _ h => ?_
  refine EndsLike.ite h (fun hl h => ?_) fun _ h => again .token hc h hr
  exact EndsLike.bind h (fun h _ => skipTypeArguments_of hc hl (hangle hl) h)
    fun _ hc₁ _ h => again .anywhere hc₁ h trivial

end Simulates

end Parser

end Exemplar
