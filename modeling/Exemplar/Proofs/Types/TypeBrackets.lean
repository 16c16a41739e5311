import Exemplar.Proofs.Types.LookAhead
import Exemplar.Proofs.Grammar.ClosedBrackets
import Exemplar.Proofs.Types.TypeSpans

/-!
# The brackets a type closes

Every rule of the grammar of types closes the brackets it opens, and no others. Most rules are
unfolded once, and the instances for their parts do the rest. Some rules consume their first
token without asking for it, because they are only called where it has been looked at: an
operator, a literal, an opening parenthesis. About these something is only said behind a test on
that token.

A token is consumed in one of three ways. It is asked for by its text, and then it matters
whether the text is a closing bracket. It has passed a test, and then no token that passes the
test may be one (`NotCloser`), or every one opens a bracket (`OpensBracket`). Or it is taken
with the whole group that it opens. The tests that the grammar of types uses are gone through
first.

The brackets are those of pieces: the round ones, the square ones and the braces. Angle brackets
are not among them, since in an expression they need not match.
-/

namespace Exemplar.Parser

open Exemplar.Tree

-- The search for an instance is as deep as the rule is long.
set_option synthInstance.maxSize 100000

/-! ## Words that are no closing brackets

A word is told from the three closing brackets by its text. The list is that of the words that
the rules ask for. -/

namespace NotCloser

instance : NotCloser (·.is ".") := of_word (by decide)

instance : NotCloser (·.is ";") := of_word (by decide)

instance : NotCloser (·.is ":") := of_word (by decide)

instance : NotCloser (·.is "?") := of_word (by decide)

instance : NotCloser (·.is "@") := of_word (by decide)

instance : NotCloser (·.is "=") := of_word (by decide)

instance : NotCloser (·.is "=>") := of_word (by decide)

instance : NotCloser (·.is "<") := of_word (by decide)

instance : NotCloser (·.is ">") := of_word (by decide)

instance : NotCloser (·.is "...") := of_word (by decide)

instance : NotCloser (·.is "+") := of_word (by decide)

instance : NotCloser (·.is "-") := of_word (by decide)

instance : NotCloser (·.is "&") := of_word (by decide)

instance : NotCloser (·.is "|") := of_word (by decide)

instance : NotCloser (·.is "is") := of_word (by decide)

instance : NotCloser (·.is "as") := of_word (by decide)

instance : NotCloser (·.is "in") := of_word (by decide)

instance : NotCloser (·.is "out") := of_word (by decide)

instance : NotCloser (·.is "const") := of_word (by decide)

instance : NotCloser (·.is "extends") := of_word (by decide)

instance : NotCloser (·.is "readonly") := of_word (by decide)

instance : NotCloser (·.is "new") := of_word (by decide)

instance : NotCloser (·.is "abstract") := of_word (by decide)

instance : NotCloser (·.is "asserts") := of_word (by decide)

instance : NotCloser (·.is "get") := of_word (by decide)

instance : NotCloser (·.is "set") := of_word (by decide)

instance : NotCloser (·.is "infer") := of_word (by decide)

instance : NotCloser (·.is "keyof") := of_word (by decide)

instance : NotCloser (·.is "unique") := of_word (by decide)

instance : NotCloser (·.is "typeof") := of_word (by decide)

instance : NotCloser (·.is "true") := of_word (by decide)

instance : NotCloser (·.is "false") := of_word (by decide)

instance : NotCloser (isWordOf parameterModifiers) := by unfold isWordOf; infer_instance

instance : NotCloser isTypeOperator := by unfold isTypeOperator; infer_instance

instance : NotCloser (·.kind == .string) :=
  of_kind fun h => by rw [beq_iff_eq.1 h]; exact fun h => by cases h

instance : NotCloser (·.kind == .number) :=
  of_kind fun h => by rw [beq_iff_eq.1 h]; exact fun h => by cases h

/-- A predefined type is no bracket. -/
instance : NotCloser (fun t => isPredefined t.text) where
  isCloser_eq_false {t} h := by
    have key : predefinedTypes.all (fun w => !(Word.mark w).token.isCloser) = true := by decide
    obtain ⟨w, hw, hx⟩ := List.any_eq_true.1 h
    have hclose := List.all_eq_true.1 key w hw
    rw [Bool.not_eq_true'] at hclose
    rw [beq_iff_eq] at hx
    rw [Token.isCloser] at hclose ⊢
    rw [hx]
    exact Bool.and_eq_false_iff.2
      (.inr ((Bool.and_eq_false_iff.1 hclose).resolve_left fun h => by cases h))

end NotCloser

namespace OpensBracket

instance : OpensBracket (·.is "(") := ⟨"(", by decide, id⟩

instance : OpensBracket (fun t => t.is "[" && !t.newlineBefore) :=
  ⟨"[", by decide, fun h => (Bool.and_eq_true_iff.1 h).1⟩

end OpensBracket

namespace Shuts

variable {f : Token → Bool}

/-! ## Names and parameters

Names have no brackets, except for a property that is named by an expression: this is skipped as
one group. -/

instance : Shuts 0 f identifier := by unfold identifier; infer_instance

instance : Shuts 0 f namePart := by unfold namePart; infer_instance

instance : Shuts 0 f entityName := by unfold entityName; dsimp only; infer_instance

instance : Shuts 0 f skipDecorators := by unfold skipDecorators whileDo; infer_instance

instance : Shuts 0 f propertyName := by unfold propertyName; infer_instance

instance (g k : Token → Bool) [NotCloser g] : Shuts 0 f (modifiersWhile (ahead g k)) := by
  unfold modifiersWhile modifierWord; infer_instance

instance : Shuts 0 f parameterName := by unfold parameterName; infer_instance

instance : Shuts 0 f skipDefault := by unfold skipDefault; infer_instance

section Nested

variable {type : Parser TypeExpr} [Moves type] [∀ f, Shuts 0 f type] (start : Position)

instance (mark : String) [NotCloser (·.is mark)] : Shuts 0 f (typeBehind mark type) := by
  unfold typeBehind; infer_instance

instance : Shuts 0 f (parameter type) := by unfold parameter; infer_instance

instance : Shuts 0 f (parameters type) := by unfold parameters; infer_instance

instance : Shuts 0 f (typeParameter type) := by unfold typeParameter whileDo; infer_instance

instance : Shuts 0 f (typeParameters? type) := by unfold typeParameters?; infer_instance

instance : Shuts 0 f (returnType type) := by unfold returnType; infer_instance

instance : Shuts 0 f (resultType? type) := by unfold resultType?; infer_instance

/-! ## Members

What tells a member is a word in front of it, which is consumed without being asked for again.
So the word is handed over as what the test has told. -/

instance (b : Bool) : Shuts 0 f (callSignature type start b) := by
  unfold callSignature; infer_instance

instance : Shuts 0 f (indexSignature type start) := by unfold indexSignature; infer_instance

instance : Tells accessorAhead (fun t => t.is "get" || t.is "set") := by
  unfold accessorAhead; infer_instance

instance : Still accessorAhead := by unfold accessorAhead; infer_instance

instance : Still indexSignatureAhead := by unfold indexSignatureAhead; infer_instance

instance {g : Token → Bool} [NotCloser g] : Shuts 0 g (accessorSignature type start) := by
  unfold accessorSignature; infer_instance

instance (ms : Modifiers) : Shuts 0 f (namedMember type start ms) := by
  unfold namedMember; infer_instance

instance : Shuts 0 f readonlyModifier := by unfold readonlyModifier; infer_instance

instance : Shuts 0 f (member type) := by unfold member; infer_instance

instance : Shuts 0 f memberEnd := by unfold memberEnd; infer_instance

instance : Shuts 0 f (nextMember type) := by unfold nextMember; infer_instance

instance : Shuts 0 f (members type) := by unfold members; infer_instance

/-! ## Atoms

An atom is chosen by its first token. A literal is consumed because of its kind, and a
parenthesis behind a look at it. -/

instance : Shuts 0 f (typeArguments type) := by unfold typeArguments; infer_instance

instance : Shuts 0 f (typeArguments? type) := by
  unfold typeArguments? argumentsAhead; infer_instance

instance : Shuts 0 f (typeReference type) := by unfold typeReference; infer_instance

instance : Shuts 0 f (tupleElement type) := by
  unfold tupleElement namedElementAhead; infer_instance

instance : Shuts 0 f (tupleType type start) := by unfold tupleType; infer_instance

instance (a b : String) [NotCloser (·.is a)] [NotCloser (·.is b)] :
    Shuts 0 f (skipEither a b) := by
  unfold skipEither; infer_instance

instance : Shuts 0 f (mappedParameter type) := by unfold mappedParameter; infer_instance

instance : Shuts 0 f (mappedType type start) := by unfold mappedType; infer_instance

instance {g : Token → Bool} [NotCloser g] : Shuts 0 g (literalType start) := by
  unfold literalType; infer_instance

instance {g : Token → Bool} [NotCloser g] : Shuts 0 g (typeQuery type start) := by
  unfold typeQuery; infer_instance

instance : Shuts 0 f (wordType type start) := by unfold wordType; infer_instance

instance {g : Token → Bool} [OpensBracket g] : Shuts 0 g (parenthesizedType type start) := by
  unfold parenthesizedType; infer_instance

instance : Shuts 0 f (bracedType type start) := by
  unfold bracedType mappedTypeAhead; infer_instance

instance : Shuts 0 f (markedType type start) := by unfold markedType negativeType; infer_instance

/-- The kind of a token tells what its type is read by. -/
instance : Shuts 0 f (atomType type) where
  shuts {c d a} hc _ h := by
    unfold atomType at h
    rw [here_bind, current_bind] at h
    -- A literal is no bracket, whatever its text is.
    have hliteral (hk : c.current.kind ≠ .punct)
        (h : literalType c.current.start c = .ok (a, d)) : c.Shuts 0 d :=
      have : NotCloser (·.kind != .punct) := NotCloser.of_kind bne_iff_ne.1
      shuts (f := (·.kind != .punct)) hc (bne_iff_ne.2 hk) h
    cases hk : c.current.kind with
    | ident =>
      rw [hk] at h
      exact shuts (f := fun _ => true) (p := wordType type c.current.start) hc rfl h
    | punct =>
      rw [hk] at h
      exact shuts (f := fun _ => true) (p := markedType type c.current.start) hc rfl h
    | string | number | template => rw [hk] at h; exact hliteral (by rw [hk]; decide) h
    | regex | eof | illegal => rw [hk] at h; cases h

instance (t : TypeExpr) : Shuts 0 f (bracketed? type t) := by unfold bracketed?; infer_instance

instance : Shuts 0 f (postfixType type) := by unfold postfixType; infer_instance

instance : Shuts 0 f (functionType type start) := by unfold functionType; infer_instance

instance : Shuts 0 f (constructorType type start) := by unfold constructorType; infer_instance

end Nested

/-! ## Levels

The rules above the atoms only combine what is below them, and the recursion over nested types
is closed by an induction. -/

/-- The parsers for nested types close what they open. They are the parsers to which the rules
return inside of brackets and behind operators. -/
class NestedShuts (nested : Nested) : Prop where
  type : ∀ f, Shuts 0 f nested.type
  union : ∀ f, Shuts 0 f nested.union
  operator : ∀ f, Shuts 0 f nested.operator

attribute [instance] NestedShuts.type NestedShuts.union NestedShuts.operator

section Levels

variable {nested : Nested} [Moves.NestedMoves nested] [NestedShuts nested] (start : Position)

instance : Shuts 0 f (inferBound nested.union) := by
  unfold inferBound extendsAhead; infer_instance

instance : Shuts 0 f (operatorType nested) := by unfold operatorType; infer_instance

/-- Between the items stands a sign that is no bracket. -/
theorem separated (w : String) [NotCloser (·.is w)] {item : Parser TypeExpr}
    [Moves item] [∀ f, Shuts 0 f item]
    (build : Span → List TypeExpr → TypeExpr) : Shuts 0 f (separated w item build) := by
  unfold Parser.separated
  refine @bind_still _ _ _ _ _ _ _ fun start => ?_
  refine @bind _ _ _ _ _ _ _ _ fun _ _ => ?_
  refine @bind _ _ _ _ _ _ _ _ fun first _ => ?_
  refine @bind _ _ _ _ _ _ _ _ fun more _ => ?_
  cases more <;> infer_instance

instance : Shuts 0 f (intersectionType nested) := separated "&" _

instance : Shuts 0 f (unionType nested) := separated "|" _

instance : Shuts 0 f (conditionalType nested start) := by
  unfold conditionalType extendsAhead; infer_instance

instance : Shuts 0 f (anyType nested) := by unfold anyType constructorTypeAhead; infer_instance

end Levels

/-- **A type closes what it opens, and no other bracket.** The induction is on the level of
nesting, and at the innermost one nothing is read. -/
instance nested (n : Nat) : NestedShuts (Parser.nested n) := by
  induction n with
  | zero =>
    have hthrow (f : Token → Bool) : Shuts 0 f (throw .exhausted : Parser TypeExpr) :=
      inferInstance
    exact ⟨hthrow, hthrow, hthrow⟩
  | succ n ih =>
    exact ⟨fun f => inferInstanceAs (Shuts 0 f (anyType (Parser.nested n))),
      fun f => inferInstanceAs (Shuts 0 f (unionType (Parser.nested n))),
      fun f => inferInstanceAs (Shuts 0 f (operatorType (Parser.nested n)))⟩

instance : Shuts 0 f typeExpr where
  shuts {c _ _} hc hf h := ((nested (c.rest.length + 1)).type f).shuts hc hf h

end Shuts

end Exemplar.Parser
