import Exemplar.Proofs.Grammar.CommonTokens

/-!
# Looking ahead in the grammar of types

Three questions of the grammar of types look further ahead than two tokens. A function type is
told from a type in parentheses by what stands behind the closing one. A mapped type is told
from an object type by a bracket, a name and `in`, behind a sign and a word that may both be
left out. And a word is taken for a predefined type only if no point follows it.

Each question is answered here in closed form, by the tokens so many places ahead. A comparison
of two runs can then compare those tokens and need not run the questions again. For the first
two of them that is done here, for any two places with the same tokens ahead; what is left open
is the one fact that needs to be known of what comes behind those tokens.
-/

namespace Exemplar.Parser

open Exemplar.Brackets
open Exemplar.Cursor (Alongside)

variable {words : List Word} {R : Cursor → Cursor → Prop} [hR : Alongside words R]
  {c c' d : Cursor} {b : Bool}

-- The search for an instance is as deep as the rule is long.
set_option synthInstance.maxSize 100000

/-! ## Questions only look -/

instance : OnTokens (·.kind == .number) where
  isEof_eq_false {t} h := by simp [Token.isEof, beq_iff_eq.1 h]

instance still_extendsAhead : Still extendsAhead := by unfold extendsAhead; infer_instance

instance definite_extendsAhead : Definite extendsAhead := by unfold extendsAhead; infer_instance

instance still_constructorTypeAhead : Still constructorTypeAhead := by
  unfold constructorTypeAhead; infer_instance

instance still_functionTypeAhead : Still functionTypeAhead := by
  unfold functionTypeAhead
  refine @Still.bind _ _ _ _ inferInstance fun t => ?_
  refine @Still.ite _ _ _ _ _ inferInstance (@Still.ite _ _ _ _ _ ?_ inferInstance)
  refine @Still.bind _ _ _ _ inferInstance fun o => ?_
  cases o <;> infer_instance

/-- A literal is not taken for a word, whatever its text. -/
theorem ahead_isPredefined (he : c.ending.Clean) (hi : c.current.isIdent = true)
    (g : Token → Bool) : ahead (fun t => isPredefined t.text) g c
      = ahead (fun t => t.isIdent && isPredefined t.text) g c := by
  rw [ahead_run he, ahead_run he, hi, Bool.true_and]

/-- A question about the token behind a bracket that was looked for. If the bracket is not found,
the answer is no. -/
theorem any_look_run (hf : c.ending.fault = none) (o : Option Nat) (q : Token → Bool) :
    (match o with
      | some i => do return q (← peek (i + 1))
      | none => return false : Parser Bool) c = .ok (o.any fun i => q (c.look (i + 1)), c) := by
  cases o with
  | none => rfl
  | some i => exact bind_of_ok (peek_look hf (Nat.succ_pos i)) _

/-! ## Function types -/

/-- Type parameters start a function type, and so does a parenthesis with an arrow behind the one
that closes it. -/
theorem functionTypeAhead_run (hf : c.ending.fault = none) : functionTypeAhead c
    = .ok (c.current.is "<" || (c.current.is "(" &&
      (matching 0 c.rest).any (fun i => (c.look (i + 1)).is "=>")), c) := by
  unfold functionTypeAhead
  rw [current_bind]
  cases c.current.is "<" with
  | true => rfl
  | false =>
    cases c.current.is "(" with
    | false => rfl
    | true =>
      rw [if_neg Bool.false_ne_true, if_pos rfl, bind_of_ok (closingBracket_run hf)]
      exact any_look_run hf _ _

/-- **A function type is seen on both sides or on neither** where a token is left, if a
parenthesis there is closed at the same place: then the same stands behind it. -/
theorem Simulates.functionTypeAhead_of [Blunt words (·.is "=>")] (hc : R c c') (hr : c.rest ≠ [])
    (hmatching : c.current.is "(" = true → matching 0 c'.rest = matching 0 c.rest)
    (h : functionTypeAhead c = .ok (b, d)) : EndsLike R (functionTypeAhead c') b d := by
  have hsame := Alongside.current hc hr
  rw [functionTypeAhead_run (Alongside.clean hc).fault] at h
  cases h
  refine ⟨_, c', functionTypeAhead_run (Alongside.clean' hc).fault, ⟨?_⟩, hc⟩
  show (_ || _) = (_ || _)
  rw [← Blind.congr (f := (·.is "<")) (fun _ => rfl) hsame,
    ← Blind.congr (f := (·.is "(")) (fun _ => rfl) hsame]
  cases ho : c.current.is "(" with
  | false => rfl
  | true => rw [behindBracket_eq (·.is "=>") hc (hmatching ho)]

/-! ## Mapped types -/

/-- Whether the tokens from a place on start a mapped type. -/
def mappedFrom (c : Cursor) (j : Nat) : Bool :=
  (c.look j).is "[" && ((c.look (j + 1)).isIdent && (c.look (j + 2)).is "in")

/-- Behind the sign and the word of a mapped type. -/
def mappedStart (c : Cursor) : Nat :=
  let i := if (c.look 1).is "+" || (c.look 1).is "-" then 2 else 1
  if (c.look i).is "readonly" then i + 1 else i

theorem mappedTypeAhead_run (hf : c.ending.fault = none) :
    mappedTypeAhead c = .ok (mappedFrom c (mappedStart c), c) := by
  have hstart : 0 < mappedStart c := by
    unfold mappedStart
    dsimp only
    split <;> split <;> omega
  unfold mappedTypeAhead
  rw [bind_of_ok (peek_look hf Nat.one_pos)]
  dsimp only
  rw [bind_of_ok (peek_look hf (by split <;> omega))]
  show (do
    if (← peek (mappedStart c)).is "[" then
      if (← peek (mappedStart c + 1)).isIdent then return (← peek (mappedStart c + 2)).is "in"
      else return false
    else return false : Parser Bool) c = _
  rw [bind_of_ok (peek_look hf hstart), mappedFrom]
  cases (c.look (mappedStart c)).is "[" with
  | false => rfl
  | true =>
    rw [if_pos rfl, bind_of_ok (peek_look hf (Nat.succ_pos _))]
    cases (c.look (mappedStart c + 1)).isIdent with
    | false => rfl
    | true =>
      rw [if_pos rfl, bind_of_ok (peek_look hf (Nat.succ_pos _))]
      rfl

/-- The words that tell a mapped type. -/
def mappedWords : List String := ["+", "-", "readonly", "[", "in"]

/-- Two who see the same up to the end of the tokens of one find the same place behind the sign
and the word, which is not behind that end. -/
theorem mappedStart_eq (he : c.ending.Clean) (hr : c.rest ≠ [])
    (hlook : ∀ w ∈ mappedWords, ∀ i ≤ c.rest.length, (c.look i).is w = (c'.look i).is w) :
    mappedStart c = mappedStart c' ∧ mappedStart c ≤ c.rest.length := by
  have hone : 1 ≤ c.rest.length := List.length_pos_iff.2 hr
  have hnext : ∀ {i : Nat} {w : String}, (c.look i).is w = true → i + 1 ≤ c.rest.length :=
    fun h => Cursor.lt_of_look he (Token.isEof_of_is h)
  unfold mappedStart
  dsimp only
  rw [← hlook "+" (by decide) 1 hone, ← hlook "-" (by decide) 1 hone]
  cases hsign : (c.look 1).is "+" || (c.look 1).is "-" with
  | false =>
    rw [if_neg Bool.false_ne_true, ← hlook "readonly" (by decide) 1 hone]
    refine ⟨rfl, ?_⟩
    split
    · exact hnext ‹_›
    · exact hone
  | true =>
    have htwo : 2 ≤ c.rest.length := ((Bool.or_eq_true _ _).mp hsign).elim hnext hnext
    rw [if_pos rfl, ← hlook "readonly" (by decide) 2 htwo]
    refine ⟨rfl, ?_⟩
    split
    · exact hnext ‹_›
    · exact htwo

/-- They agree on a mapped type if they also see the same behind an opening bracket. -/
theorem mappedFrom_eq (he : c.ending.Clean)
    (hlook : ∀ w ∈ mappedWords, ∀ i ≤ c.rest.length, (c.look i).is w = (c'.look i).is w)
    (hname : ∀ i < c.rest.length, (c.look i).is "[" = true →
      (c.look (i + 1)).isIdent = (c'.look (i + 1)).isIdent) {j : Nat} (hj : j ≤ c.rest.length) :
    mappedFrom c j = mappedFrom c' j := by
  unfold mappedFrom
  rw [← hlook "[" (by decide) j hj]
  cases hbracket : (c.look j).is "[" with
  | false => rfl
  | true =>
    have hlt := Cursor.lt_of_look he (Token.isEof_of_is hbracket)
    rw [← hname j hlt hbracket]
    cases hident : (c.look (j + 1)).isIdent with
    | false => rfl
    | true =>
      have hlt' := Cursor.lt_of_look he (Token.isEof_of_isIdent hident)
      rw [hlook "in" (by decide) (j + 2) hlt']

/-- **A mapped type is seen on both sides or on neither** where a token is left, if the two
agree on the word behind a bracket. The other tests are blunt, so they may be asked just behind
the tokens ahead; that one may be passed by what comes there. -/
theorem Simulates.mappedTypeAhead_of [Blunt words (·.is "+")] [Blunt words (·.is "-")]
    [Blunt words (·.is "readonly")] [Blunt words (·.is "[")]
    [Blunt words (·.is "in")] (hc : R c c')
    (hr : c.rest ≠ [])
    (hname : ∀ i < c.rest.length, (c.look i).is "[" = true →
      (c.look (i + 1)).isIdent = (c'.look (i + 1)).isIdent)
    (h : mappedTypeAhead c = .ok (b, d)) : EndsLike R (mappedTypeAhead c') b d := by
  have hclean := Alongside.clean hc
  have hlook : ∀ w ∈ mappedWords, ∀ i ≤ c.rest.length, (c.look i).is w = (c'.look i).is w := by
    simp only [mappedWords, List.forall_mem_cons, List.not_mem_nil, false_implies,
      forall_true_iff, and_true]
    exact ⟨fun _ => Alongside.look_eq hc (·.is "+"), fun _ => Alongside.look_eq hc (·.is "-"),
      fun _ => Alongside.look_eq hc (·.is "readonly"), fun _ => Alongside.look_eq hc (·.is "["),
      fun _ => Alongside.look_eq hc (·.is "in")⟩
  obtain ⟨hstart, hle⟩ := mappedStart_eq hclean hr hlook
  rw [mappedTypeAhead_run hclean.fault] at h
  cases h
  refine ⟨_, c', mappedTypeAhead_run (Alongside.clean' hc).fault, ⟨?_⟩, hc⟩
  rw [← hstart]
  exact mappedFrom_eq hclean hlook hname hle

end Exemplar.Parser
