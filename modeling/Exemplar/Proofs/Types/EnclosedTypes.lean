import Exemplar.Proofs.Grammar.EnclosedText
import Exemplar.Proofs.Types.TypeSimulation

/-!
# Types inside larger types

A type that is read as a text of its own is read as a piece of a larger type as well. The walk
over the grammar of types is the one of all simulations; what is shown here is that none of its
questions can tell whether the text goes on.

Every rule of the grammar comes to the end of the text in one of two ways. It may end there:
then it asks what comes next only by words that come behind no type, and the tests that ask for
them are inert. Or it stands in brackets, or expects a mark of its own further on: then it stops
before the text ends and sees nothing of what is behind. Two places need a closer look. An index
signature is told from three tokens, and that they all stand in the text follows from the
bracket among them, which is closed in the text. And the element of a tuple is told from three
tokens too, which stand in the text because the element is followed by another token.
-/

namespace Exemplar.Parser

open Exemplar.Tree Exemplar.Brackets
open Exemplar.Cursor (Enclosed Alongside)

variable {k : Scope} {c c' d : Cursor} {more : List Token}

-- The search for an instance is as deep as the rule is long.
set_option synthInstance.maxSize 100000

/-! ## Words that come behind no type

What comes behind a type inside a larger one is a mark, so no test for a word is passed by it. -/

instance : TypeSigns fences := {}

namespace Inert

instance : Inert fences (·.isIdent) := {}

instance : Inert fences (fun t => t.isIdent && !t.newlineBefore) := {}

instance : Inert fences (fun t => t.isIdent && isPredefined t.text) := {}

instance : Inert fences (·.kind == .number) := {}

instance : Inert fences (·.is "+") := {}

instance : Inert fences (·.is "in") := {}

instance : Inert fences (·.is "readonly") := {}

instance : Inert fences (·.is "asserts") := {}

instance : Inert fences (·.is "infer") := {}

instance : Inert fences (·.is "typeof") := {}

instance : Inert fences (·.is "=>") := {}

instance : Inert fences (fun t => t.is "get" || t.is "set") := {}

instance : Inert fences startsBinding := {}

instance : Inert fences startsKey := {}

instance : Inert fences startsSignature := {}

instance : Inert fences isTypeOperator := {}

instance : Inert fences startsType := {}

instance : Blunt fences (fun t => !t.is ".") := {}

end Inert

namespace Persists

/-! ## Longer questions

Whether a bracket starts an index signature or a mapped type, and whether a parenthesis starts a
function, is decided behind the bracket. In all three cases the closing one stands in the text,
and what is asked of the token behind it is blunt. -/

/-- A bracket with a word behind it is not closed before the word. -/
theorem two_lt_of_bracket (hc : Enclosed more c c') (hm : more ≠ [])
    (hb : c.current.is "[" = true) (hi : c.second.isIdent = true) : 2 < c.rest.length := by
  have ho := hc.visited.isOpener_of_is (by decide) hb
  obtain ⟨i, hfound⟩ := hc.exists_matching hm (by decide) hb
  have hr : c.rest ≠ [] := hc.visited.rest_ne_nil (Token.isEof_of_is hb)
  obtain ⟨t, u, ts, hcons⟩ := Cursor.two_of_second hc.clean hr hi
  cases ts with
  | cons v ts => rw [hcons]; exact Nat.le_add_left 3 _
  | nil =>
    -- the word would be the last token, and it closes nothing
    rw [Cursor.second_of_cons hcons,
      Cursor.current_of_cons (c := c.past t [u]) rfl, Token.isIdent, beq_iff_eq] at hi
    rw [Cursor.current_of_cons hcons] at ho
    have hopen : u.isOpener = false := by rw [Token.isOpener, hi]; rfl
    have hclose : u.isCloser = false := by rw [Token.isCloser, hi]; rfl
    rw [hcons, matching, if_pos ho, matching, hopen, hclose] at hfound
    cases hfound

/-- Three tokens tell an index signature, and behind a bracket and a word there are three. -/
instance : Persists more .token indexSignatureAhead indexSignatureAhead where
  endsLike {c c' d b} hc h hr := by
    unfold indexSignatureAhead at h ⊢
    refine Simulates.ahead₃_of hc (Simulates.ahead₃_eq (·.is "[") (·.isIdent) (·.is ":")
      (Simulates.ahead_eq (·.is "[") (·.isIdent) hc hr fun _ => rfl) fun hf hg => ?_) h
    by_cases hm : more = []
    · subst hm
      exact hc.is_look_eq ":" 2
    · exact Alongside.look_eq_of_lt hc (f := (·.is ":")) (fun _ => rfl)
        (two_lt_of_bracket hc hm hf hg)

/-- A mapped type is told from two. -/
instance : Persists more .token mappedTypeAhead mappedTypeAhead where
  endsLike hc h hr := Simulates.mappedTypeAhead_of hc hr
    (fun _ hi _ => Alongside.look_eq hc (·.isIdent) hi) h

/-- A parenthesis is closed inside the text. -/
instance : Persists more .token functionTypeAhead functionTypeAhead where
  endsLike hc h hr := Simulates.functionTypeAhead_of hc hr (hc.matching_eq (by decide)) h

instance : TypeTests (Enclosed more) where
  index := inferInstance
  mapped := inferInstance
  function := inferInstance

/-! ## Parameters

Parameters stand in brackets, so none of them comes to the end of the text. -/

/-- An initial value stands behind its sign, so something has been consumed where it starts. -/
instance : Persists more .bracketed skipDefault skipDefault where
  endsLike {c c' d a} hc h hd := by
    unfold skipDefault at h ⊢
    refine EndsLike.bind (R := Enclosed more) h
      (fun h₁ _ => Simulates.again .anywhere hc h₁ trivial) ?_
    rintro b b' c₁ c₁' ⟨hb⟩ hc₁ h₁ h₂
    obtain rfl : b = b' := hb
    rcases got_inv hc.clean h₁ with ⟨rfl, rfl, -⟩ | ⟨rfl, t, ts, -, -, rfl⟩
    · exact Simulates.again (p := (pure () : Parser Unit)) .anywhere hc₁ h₂ trivial
    · have hi : (c.past t ts).Inside := (Upholds.admits (k := .bracketed) hc.visited h₁ hd).1
      exact skipExpression_enclosed hc₁ hi (Option.some_ne_none t) h₂ hd.2

section Nested

variable {type type' : Parser TypeExpr} [Moves type] [∀ f, Shuts 0 f type]
  [Persists more .anywhere type type'] (start start' : Position)

instance : Persists more .bracketed (parameter type) (parameter type') := by
  unfold parameter; infer_instance

/-- The list of the parameters stands behind its opening bracket, and the closing one is expected
behind it. -/
theorem parameters : Persists more .anywhere (parameters type) (parameters type') := by
  unfold Parser.parameters
  exact expect_open (j := .token) (by decide) fun h _ => h

theorem indexSignature :
    Persists more .inside (indexSignature type start) (indexSignature type' start') := by
  unfold Parser.indexSignature
  exact expect_open (j := .inside) (by decide) fun _ h => h

end Nested

/-! ## Elements of tuples

An element is told from its first three tokens, and where it stands in brackets these are tokens
of the text: an element that ends before them is followed by another token. -/

section Nested

variable {type type' : Parser TypeExpr} [Moves type] [Consumes type]

/-- An element is not empty. -/
instance consumes_tupleElement : Consumes (tupleElement type) := by
  unfold tupleElement; infer_instance

/-- A rest element that something follows has three tokens ahead. -/
theorem two_lt_of_spread {a : TypeExpr} (hc : c.Visited) (he : c.ending.Clean)
    (h : tupleElement type c = .ok (a, d)) (hd : d.rest ≠ []) (hs : c.current.is "..." = true) :
    2 < c.rest.length := by
  unfold tupleElement at h
  rw [here_bind, bind_of_ok (Simulates.ahead₃_run he _ _ _), ite_run] at h
  split at h
  · -- named, and then the third token is the colon
    rename_i htest
    exact Cursor.lt_of_look he (Token.isEof_of_is (Bool.and_eq_true_iff.1 htest).2)
  · -- not named: the points, a type, and what follows
    obtain ⟨b, c₁, h₁, h₂⟩ := bind_eq_ok.1 h
    rcases got_inv he h₁ with ⟨-, -, hfalse⟩ | ⟨rfl, t, ts, hr, -, rfl⟩
    · rw [hs] at hfalse
      cases hfalse
    · have hlt := Consumes.lt_of_ok
        (p := do let t ← type; return TypeExpr.rest (← spanFrom c.current.start) t)
        (hc.of_ok h₁) h₂
      have hpos := List.length_pos_iff.2 hd
      rw [Cursor.past_rest] at hlt
      rw [hr, List.length_cons]
      omega

/-- So has any other element with a question mark behind its first token. With just the two of
them the type would be the first token and the mark would be taken for that of an optional
element, and nothing would follow. -/
theorem two_lt_of_optional {a : TypeExpr} (hc : c.Visited) (he : c.ending.Clean)
    (h : tupleElement type c = .ok (a, d)) (hd : d.rest ≠ []) (hs : c.current.is "..." = false)
    (hq : c.second.is "?" = true) : 2 < c.rest.length := by
  have hr : c.rest ≠ [] := Needs.rest_ne_nil hc h
  obtain ⟨t, u, ts, hcons⟩ := Cursor.two_of_second (g := (·.is "?")) he hr hq
  cases ts with
  | cons v ts => rw [hcons]; exact Nat.le_add_left 3 _
  | nil =>
    -- with two tokens left the element is not named, by neither of the two tests
    have hcolon := Token.is_eq_false_of_is hq (w := ":") (by decide)
    have hend : (c.look 2).is ":" = false := by
      rw [Cursor.look, hcons]
      exact he.is_eq_false ":"
    have hspread : got "..." c = .ok (false, c) := (got_run "...").trans (if_neg (by simp [hs]))
    have hnamed : namedElementAhead c = .ok (false, c) := by
      unfold namedElementAhead
      rw [bind_of_ok (ahead_run he _ _), hcolon, Bool.and_false, if_neg Bool.false_ne_true,
        Simulates.ahead₃_run he, hend, Bool.and_false]
    unfold tupleElement at h
    rw [here_bind, bind_of_ok (Simulates.ahead₃_run he _ _ _), hs,
      Bool.false_and, Bool.false_and, if_neg Bool.false_ne_true, bind_of_ok hspread,
      if_neg Bool.false_ne_true, bind_of_ok hnamed, if_neg Bool.false_ne_true] at h
    -- the type is the first token, and the mark is the last
    obtain ⟨x, c₁, h₁, h₂⟩ := bind_eq_ok.1 h
    obtain ⟨b, c₂, h₃, h₄⟩ := bind_eq_ok.1 h₂
    have hd₂ : c₂.rest ≠ [] := (Moves.reaches_of_ok (p := if b = true then
      (do return TypeExpr.optional (← spanFrom c.current.start) x) else return x) h₄).rest_ne_nil
        hd
    have hd₁ : 0 < c₁.rest.length :=
      List.length_pos_iff.2 ((Moves.reaches_of_ok h₃).rest_ne_nil hd₂)
    have hlt := Consumes.lt_of_ok hc h₁
    have hsuffix := (Moves.reaches_of_ok h₁).suffix
    rw [hcons] at hlt hsuffix
    have hlast : c₁.rest = [u] := by
      rcases List.suffix_cons_iff.1 hsuffix with heq | hsuffix
      · rw [heq] at hlt
        exact absurd hlt (Nat.lt_irrefl _)
      · exact hsuffix.eq_of_length_le hd₁
    rw [Cursor.second_of_cons hcons, Cursor.current_of_cons (c := c.past t [u]) rfl] at hq
    have he₁ : c₁.ending.Clean := by rwa [Moves.ending_of_ok h₁]
    rcases got_inv he₁ h₃ with ⟨-, -, hfalse⟩ | ⟨-, _, rest, hrest, -, rfl⟩
    · rw [Cursor.current_of_cons hlast, hq] at hfalse
      cases hfalse
    · rw [hlast] at hrest
      obtain ⟨-, rfl⟩ := List.cons.inj hrest
      exact absurd rfl hd₂

/-- Whether an element is named is told alike where two tokens are left, and three behind a
mark. -/
theorem namedElementAhead_of {b : Bool} (hc : Enclosed more c c') (hlt : 1 < c.rest.length)
    (hthree : c.second.is "?" = true → 2 < c.rest.length)
    (hrun : namedElementAhead c = .ok (b, d)) :
    EndsLike (Enclosed more) (namedElementAhead c') b d := by
  unfold namedElementAhead at hrun ⊢
  refine EndsLike.bind (R := Enclosed more) hrun (fun h₁ _ => ?_) ?_
  · rw [ahead_run hc.clean] at h₁
    cases h₁
    exact ⟨_, c', ahead_run hc.clean' _ _,
      ⟨Simulates.ahead_eq_of_lt (·.isIdent) (·.is ":") hc hlt (fun _ => rfl) fun _ => rfl⟩, hc⟩
  rintro b b' c₁ c₁' ⟨hb⟩ hc₁ h₁ h₂
  obtain rfl : b = b' := hb
  obtain rfl := Still.eq_of_ok h₁
  refine EndsLike.ite h₂ (fun _ h₂ => Simulates.again .anywhere hc₁ h₂ trivial) fun _ h₂ =>
    Simulates.ahead₃_of hc₁ ?_ h₂
  exact Simulates.ahead₃_eq (·.isIdent) (·.is "?") (·.is ":")
    (Simulates.ahead_eq_of_lt (·.isIdent) (·.is "?") hc₁ hlt (fun _ => rfl) fun _ => rfl)
    fun _ hq => Alongside.look_eq_of_lt hc₁ (f := (·.is ":")) (fun _ => rfl) (hthree hq)

variable [Persists more .anywhere type type']

theorem tupleElement : Persists more .inside (tupleElement type) (tupleElement type') where
  endsLike {c c' d a} hc h hd := by
    -- Something is consumed, and something is left behind it.
    have hlt : 1 < c.rest.length :=
      Nat.lt_of_le_of_lt (List.length_pos_iff.2 hd) (Consumes.lt_of_ok hc.visited h)
    have hr : c.rest ≠ [] := List.length_pos_iff.1 (Nat.zero_lt_of_lt hlt)
    have hspread := two_lt_of_spread hc.visited hc.clean h hd
    have hoptional := two_lt_of_optional hc.visited hc.clean h hd
    unfold Parser.tupleElement at h ⊢
    rw [here_bind] at h
    rw [EndsLike, here_bind]
    -- a named rest element
    refine EndsLike.bind (R := Enclosed more) h (fun h₁ _ => Simulates.ahead₃_of hc ?_ h₁) ?_
    · exact Simulates.ahead₃_eq (·.is "...") (·.isIdent) (·.is ":")
        (Simulates.ahead_eq (·.is "...") (·.isIdent) hc hr fun _ => rfl)
        fun hf _ => Alongside.look_eq_of_lt hc (f := (·.is ":")) (fun _ => rfl) (hspread hf)
    rintro b b' c₁ c₁' ⟨hb⟩ hc₁ h₁ h₂
    obtain rfl : b = b' := hb
    obtain rfl := Still.eq_of_ok h₁
    refine EndsLike.ite h₂ (fun _ h₂ => Simulates.endsLike (k := .inside) hc₁ h₂ hd) fun _ h₂ =>
      ?_
    -- a rest element
    refine EndsLike.bind (R := Enclosed more) h₂
      (fun h₃ _ => Simulates.again .token hc₁ h₃ hr) ?_
    rintro b b' c₂ c₂' ⟨hb⟩ hc₂ h₃ h₄
    obtain rfl : b = b' := hb
    refine EndsLike.ite h₄ (fun _ h₄ => Simulates.endsLike (k := .inside) hc₂ h₄ hd)
      fun hb h₄ => ?_
    obtain ⟨-, rfl, hs⟩ := (got_inv hc₁.clean h₃).resolve_right fun h => hb h.1
    -- a named element, or a type with or without a mark
    refine EndsLike.bind (R := Enclosed more) h₄
      (fun h₅ _ => namedElementAhead_of hc₂ hlt (hoptional hs) h₅) ?_
    rintro b b' c₃ c₃' ⟨hb⟩ hc₃ - h₆
    obtain rfl : b = b' := hb
    exact EndsLike.ite h₆ (fun _ h₆ => Simulates.endsLike (k := .inside) hc₃ h₆ hd)
      fun _ h₆ => Simulates.endsLike (k := .inside) hc₃ h₆ hd

end Nested

/-- **Types persist inside larger ones**: the text supplies what the walk over their grammar asks
for. -/
instance : TypeRules (Enclosed more) where
  parameters := parameters
  indexSignature := indexSignature
  tupleElement := tupleElement

end Persists

end Exemplar.Parser
