import Exemplar.Proofs.Grammar.SameTokens

/-!
# Types on the same tokens

Every rule of the grammar of types ends alike on the same tokens: two runs of it answer trees
that are the same without their places, or stop with the same complaint about the same word. A
rule is unfolded once, and the instances for its parts do the rest.

What is special to a rule is how it decides, and that is what could tell two sources with the
same tokens apart. The decisions are few. A rule asks for the kind of a token, for its text, for
a line break before it, or for several of these at once, and it never asks where a token stands.
So the first section says that each of these questions has the same answer on tokens that are
the same without their spans, and the search for instances finds them wherever a rule asks one.
-/

namespace Exemplar

open Exemplar.Tree

/-! ## What rules ask of tokens and make of texts

A test that is blind to spans is so by definition (`rfl`), whatever it asks. The texts of tokens
are kept as they are, so what is made of texts is the same because the texts are. -/

section Tests

variable {t u : Token} [h : SameBare t u]

/-- The kind is no place. This one is stated as an equation, because a rule that matches on the
kind is opened by rewriting with it. -/
theorem Token.kind_eq : t.kind = u.kind := h.congr (f := Token.kind) fun _ => rfl

open Exemplar.Parser

instance : SameBare (startsKey t) (startsKey u) := ⟨h.congr (f := startsKey) fun _ => rfl⟩

instance : SameBare (startsBinding t) (startsBinding u) :=
  ⟨h.congr (f := startsBinding) fun _ => rfl⟩

instance : SameBare (startsSignature t) (startsSignature u) :=
  ⟨h.congr (f := startsSignature) fun _ => rfl⟩

instance : SameBare (startsType t) (startsType u) := ⟨h.congr (f := startsType) fun _ => rfl⟩

instance : SameBare (isTypeOperator t) (isTypeOperator u) :=
  ⟨h.congr (f := isTypeOperator) fun _ => rfl⟩

instance (words : List String) : SameBare (isWordOf words t) (isWordOf words u) :=
  ⟨h.congr (f := isWordOf words) fun _ => rfl⟩

end Tests

section Texts

variable {x y : Text} {l l' : List Text}

/-- A list of texts has no places at all, so it is the same list. Taking its places away is the
identity on each element, and mapping the identity changes nothing. -/
theorem SameBare.eq_of_texts (h : SameBare l l') : l = l' := by
  have heq : l.map id = l'.map id := h.eq
  rwa [List.map_id, List.map_id] at heq

instance [h : SameBare x y] : SameBare (Parser.isPredefined x) (Parser.isPredefined y) :=
  ⟨congrArg Parser.isPredefined h.eq⟩

instance [h : SameBare x y] (z : Text) : SameBare (z ++ x) (z ++ y) := ⟨congrArg (z ++ ·) h.eq⟩

instance (f : Text → Text → Text) [h : SameBare l l'] [hx : SameBare x y] :
    SameBare (l.foldl f x) (l'.foldl f y) :=
  ⟨congrArg₂ (fun l x => List.foldl f x l) h.eq_of_texts hx.eq⟩

instance [h : SameBare l l'] :
    SameBare (l.filterMap Modifier.ofWord? : Modifiers) (l'.filterMap Modifier.ofWord?) :=
  ⟨congrArg (List.filterMap Modifier.ofWord?) h.eq_of_texts⟩

end Texts

namespace Parser.Agrees

-- The search for an instance is as deep as the rule is long.
set_option synthInstance.maxSize 100000

/-! ## Names

A name is read from one token, or from several with points between them, and nothing is decided
by more than kind and text. -/

instance : Agrees identifier identifier := by unfold identifier; infer_instance

instance : Agrees namePart namePart := by unfold namePart; infer_instance

instance : Agrees entityName entityName := by unfold entityName; infer_instance

instance : Agrees skipDecorators skipDecorators := by unfold skipDecorators; infer_instance

instance : Agrees propertyName propertyName := by unfold propertyName; infer_instance

/-! ## Parameters and members

Modifiers are kept as texts and compared as such. Where a rule looks ahead, it looks at a fixed
number of tokens, or at the one behind a closing bracket; both are at the same distance on the
two sides, because the tokens are the same. -/

instance {test test' : Parser Bool} [Agrees test test'] :
    Agrees (modifierWord test) (modifierWord test') := by
  unfold modifierWord; infer_instance

instance {test test' : Parser Bool} [Agrees test test'] :
    Agrees (modifiersWhile test) (modifiersWhile test') := by
  unfold modifiersWhile; infer_instance

instance : Agrees parameterName parameterName := by unfold parameterName; infer_instance

instance : Agrees skipDefault skipDefault := by unfold skipDefault; infer_instance

instance : Agrees readonlyModifier readonlyModifier := by unfold readonlyModifier; infer_instance

instance : Agrees memberEnd memberEnd := by unfold memberEnd; infer_instance

instance : Agrees accessorAhead accessorAhead := by unfold accessorAhead; infer_instance

instance : Agrees indexSignatureAhead indexSignatureAhead := by
  unfold indexSignatureAhead; infer_instance

instance : Agrees argumentsAhead argumentsAhead := by unfold argumentsAhead; infer_instance

instance : Agrees namedElementAhead namedElementAhead := by
  unfold namedElementAhead; infer_instance

instance : Agrees mappedTypeAhead mappedTypeAhead := by unfold mappedTypeAhead; infer_instance

instance (a b : String) : Agrees (skipEither a b) (skipEither a b) := by
  unfold skipEither; infer_instance

instance (start start' : Position) : Agrees (literalType start) (literalType start') := by
  unfold literalType; infer_instance

instance (start start' : Position) : Agrees (negativeType start) (negativeType start') := by
  unfold negativeType; infer_instance

instance : Agrees extendsAhead extendsAhead := by unfold extendsAhead; infer_instance

instance : Agrees functionTypeAhead functionTypeAhead := by
  unfold functionTypeAhead
  -- A parenthesis is where the place behind its partner is asked for, if it has one.
  refine bind_of inferInstance fun t t' ht => ?_
  refine @ite _ _ _ _ inferInstance _ _ _ _ inferInstance ?_
  refine @ite _ _ _ _ inferInstance _ _ _ _ ?_ inferInstance
  exact bind_option inferInstance fun _ => inferInstance

instance : Agrees constructorTypeAhead constructorTypeAhead := by
  unfold constructorTypeAhead; infer_instance

section Nested

variable {type type' : Parser TypeExpr} [Agrees type type'] (start start' : Position)

instance (w : String) : Agrees (typeBehind w type) (typeBehind w type') := by
  unfold typeBehind; infer_instance

instance : Agrees (parameter type) (parameter type') := by unfold parameter; infer_instance

instance : Agrees (parameters type) (parameters type') := by unfold parameters; infer_instance

instance : Agrees (typeParameter type) (typeParameter type') := by
  unfold typeParameter; infer_instance

instance : Agrees (typeParameters? type) (typeParameters? type') := by
  unfold typeParameters?; infer_instance

instance : Agrees (returnType type) (returnType type') := by unfold returnType; infer_instance

instance : Agrees (resultType? type) (resultType? type') := by unfold resultType?; infer_instance

instance (b : Bool) : Agrees (callSignature type start b) (callSignature type' start' b) := by
  unfold callSignature; infer_instance

instance : Agrees (indexSignature type start) (indexSignature type' start') := by
  unfold indexSignature; infer_instance

instance : Agrees (accessorSignature type start) (accessorSignature type' start') := by
  unfold accessorSignature; infer_instance

instance {ms ms' : Modifiers} [SameBare ms ms'] :
    Agrees (namedMember type start ms) (namedMember type' start' ms') := by
  unfold namedMember; infer_instance

instance : Agrees (member type) (member type') := by unfold member; infer_instance

instance : Agrees (nextMember type) (nextMember type') := by unfold nextMember; infer_instance

instance : Agrees (members type) (members type') := by unfold members; infer_instance

/-! ## Types

The places where a node starts are arguments of the rules for types, and they differ on the two
sides. The instances are for any two of them. -/

instance : Agrees (typeArguments type) (typeArguments type') := by
  unfold typeArguments; infer_instance

instance : Agrees (typeArguments? type) (typeArguments? type') := by
  unfold typeArguments?; infer_instance

instance : Agrees (typeReference type) (typeReference type') := by
  unfold typeReference; infer_instance

instance : Agrees (tupleElement type) (tupleElement type') := by
  unfold tupleElement; infer_instance

instance : Agrees (tupleType type start) (tupleType type' start') := by
  unfold tupleType; infer_instance

instance : Agrees (mappedParameter type) (mappedParameter type') := by
  unfold mappedParameter; infer_instance

instance : Agrees (mappedType type start) (mappedType type' start') := by
  unfold mappedType; infer_instance

instance : Agrees (typeQuery type start) (typeQuery type' start') := by
  unfold typeQuery; infer_instance

instance : Agrees (wordType type start) (wordType type' start') := by
  unfold wordType; infer_instance

instance : Agrees (parenthesizedType type start) (parenthesizedType type' start') := by
  unfold parenthesizedType; infer_instance

instance : Agrees (bracedType type start) (bracedType type' start') := by
  unfold bracedType; infer_instance

instance : Agrees (markedType type start) (markedType type' start') := by
  unfold markedType; infer_instance

instance : Agrees (atomType type) (atomType type') := by
  unfold atomType
  refine @bind _ _ _ _ _ _ _ _ inferInstance fun start => ?_
  refine @bind _ _ _ _ _ _ _ _ inferInstance fun t => ?_
  -- The kind of the first token selects the alternative, and both sides select the same one.
  rw [Token.kind_eq (t := t.left) (u := t.right)]
  split <;> infer_instance

instance {t u : TypeExpr} [SameBare t u] : Agrees (bracketed? type t) (bracketed? type' u) := by
  unfold bracketed?; infer_instance

instance : Agrees (postfixType type) (postfixType type') := by unfold postfixType; infer_instance

instance : Agrees (functionType type start) (functionType type' start') := by
  unfold functionType; infer_instance

instance : Agrees (constructorType type start) (constructorType type' start') := by
  unfold constructorType; infer_instance

end Nested

/-- Items that are combined alike end alike. Of the node that is built nothing has to be known
but that it is the same without places if its items are (`hbuild`); unions and intersections
differ in that node and in the mark. If there is one item, no node is built and the item itself
is the answer, so the list of further items is taken apart. -/
theorem separated (w : String) {item item' : Parser TypeExpr} [Agrees item item']
    {build : Span → List TypeExpr → TypeExpr}
    (hbuild : ∀ (s s' : Span) (r : BarePair (List TypeExpr)),
      SameBare (build s r.left) (build s' r.right)) :
    Agrees (separated w item build) (separated w item' build) := by
  unfold Parser.separated
  refine bind_of inferInstance fun start start' hstart => ?_
  refine bind_of inferInstance fun _ _ _ => ?_
  refine bind_of inferInstance fun first first' hfirst => ?_
  refine bind_of inferInstance fun more more' hmore => ?_
  obtain ⟨rfl, rfl⟩ | ⟨t, t', l, l', rfl, rfl, ht, hl⟩ := hmore.nil_or_cons
  · infer_instance
  · have hsame (s : BarePair Span) :
        SameBare (build s.left (first :: t :: l)) (build s.right (first' :: t' :: l')) :=
      hbuild _ _ ⟨_, _, inferInstance⟩
    infer_instance

/-! ## Levels

The levels of the grammar refer to each other through the record of parsers for nested types, so
agreement is stated for records first. -/

/-- The parsers for nested types end alike: the one for any type, the one for a union, and the
one for an operand. -/
class NestedAgrees (nested nested' : Nested) : Prop where
  type : Agrees nested.type nested'.type
  union : Agrees nested.union nested'.union
  operator : Agrees nested.operator nested'.operator

attribute [instance] NestedAgrees.type NestedAgrees.union NestedAgrees.operator

section Levels

variable {nested nested' : Nested} [NestedAgrees nested nested'] (start start' : Position)

instance : Agrees (inferBound nested.union) (inferBound nested'.union) := by
  unfold inferBound; infer_instance

instance : Agrees (operatorType nested) (operatorType nested') := by
  unfold operatorType; infer_instance

instance : Agrees (intersectionType nested) (intersectionType nested') :=
  separated "&" fun _ _ _ => inferInstance

instance : Agrees (unionType nested) (unionType nested') :=
  separated "|" fun _ _ _ => inferInstance

instance : Agrees (conditionalType nested start) (conditionalType nested' start') := by
  unfold conditionalType; infer_instance

instance : Agrees (anyType nested) (anyType nested') := by unfold anyType; infer_instance

end Levels

/-- **Types nest equally deep on both sides**, and at every depth they end alike. With no depth
left, both fail in the same way. -/
instance nested (n : Nat) : NestedAgrees (nested n) (nested n) := by
  induction n with
  | zero =>
    exact ⟨inferInstanceAs (Agrees (throw _) (throw _)),
      inferInstanceAs (Agrees (throw _) (throw _)), inferInstanceAs (Agrees (throw _) (throw _))⟩
  | succ n ih =>
    exact ⟨inferInstanceAs (Agrees (anyType (Parser.nested n)) (anyType (Parser.nested n))),
      inferInstanceAs (Agrees (unionType (Parser.nested n)) (unionType (Parser.nested n))),
      inferInstanceAs (Agrees (operatorType (Parser.nested n)) (operatorType (Parser.nested n)))⟩

instance : Agrees typeExpr typeExpr := by
  unfold typeExpr
  refine bind_get fun hc => ?_
  -- The depth that is granted is the number of tokens ahead.
  rw [hc.length_eq]
  infer_instance

instance : Agrees wholeType wholeType := by unfold wholeType; infer_instance

end Parser.Agrees

end Exemplar
