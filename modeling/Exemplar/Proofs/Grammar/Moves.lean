import Exemplar.Proofs.Grammar.Running

/-!
# Every rule of the grammar moves forward

A parser moves if it never goes back: from wherever it runs, the place where it stops is reached
by consuming tokens one after the other (`Moves`). Nothing in the model rules out a parser that
sets the cursor to any place it likes, so this is proved of each rule, and most of what is said
about places later on starts from it: that a loop makes progress, that spans are ordered, that a
run which has consumed nothing is where it was.

The judgment composes, so the proof for a rule is the way the rule is put together. It is
unfolded once, and the instances for its parts do the rest; a rule that takes the parser for
nested types as an argument moves if that parser does. Only where a rule matches on an answer
the search has to be helped: it does not look into the alternatives of a `match`, so the
sequence is taken apart by hand up to the answer, and the answer is split.
-/

namespace Exemplar.Parser.Moves

open Exemplar.Tree

variable {α σ : Type}

-- The search for an instance is as deep as the rule is long.
set_option synthInstance.maxSize 100000

/-! ## Loops

A loop counts down its fuel, so the induction is on that. Without fuel it fails, and a failure
has not moved at all. With fuel it makes one round, and the answer says whether a loop with less
fuel comes behind it. -/

instance collectUpTo (next : Parser (Option α)) [Moves next] (n : Nat) :
    Moves (collectUpTo next n) := by
  induction n with
  | zero => exact inferInstanceAs (Moves (throw Halt.exhausted : Parser (List α)))
  | succ n ih =>
    unfold Parser.collectUpTo
    -- The answer of the round is split: either the loop is over or it goes on.
    refine @Moves.bind _ _ _ _ inferInstance fun o => ?_
    cases o <;> infer_instance

instance (next : Parser (Option α)) [Moves next] : Moves (collect next) := by
  unfold collect; infer_instance

instance iterateUpTo (step : σ → Parser (Option σ)) [∀ s, Moves (step s)] (n : Nat) (s : σ) :
    Moves (iterateUpTo step n s) := by
  induction n generalizing s with
  | zero => exact inferInstanceAs (Moves (throw Halt.exhausted : Parser σ))
  | succ n ih =>
    unfold Parser.iterateUpTo
    refine @Moves.bind _ _ _ _ inferInstance fun o => ?_
    cases o <;> infer_instance

instance (step : σ → Parser (Option σ)) [∀ s, Moves (step s)] (s : σ) :
    Moves (iterate step s) := by
  unfold iterate; infer_instance

instance (test : Parser Bool) (body : Parser Unit) [Moves test] [Moves body] :
    Moves (onceMore test body) := by
  unfold onceMore; infer_instance

instance (separator : String) (item : Parser α) [Moves item] :
    Moves (itemBehind separator item) := by
  unfold itemBehind; infer_instance

instance (closer : String) (item : Parser α) [Moves item] : Moves (itemBefore closer item) := by
  unfold itemBefore; infer_instance

instance (test : Parser Bool) (body : Parser Unit) [Moves test] [Moves body] :
    Moves (whileDo test body) := by
  unfold whileDo; infer_instance

instance (item : Parser α) [Moves item] : Moves (commaList₁ item) := by
  unfold commaList₁; infer_instance

instance (closer : String) (item : Parser α) [Moves item] : Moves (commaList closer item) := by
  unfold commaList; infer_instance

/-! ## Skipping

A scan for a closing bracket does not consume what it goes over. It looks at the tokens ahead
and answers how many there are, and only then the cursor is advanced over them, one token at a
time. So the scans themselves move in the trivial sense that they stay where they are. -/

instance : Moves closingBracket := by
  unfold closingBracket
  refine @Moves.bind _ _ _ _ inferInstance fun c => ?_
  -- Both answers leave the cursor alone.
  split <;> infer_instance

instance : Moves closingAngle := by
  unfold closingAngle
  refine @Moves.bind _ _ _ _ inferInstance fun c => ?_
  split <;> infer_instance

instance : Moves skipGroup := by
  unfold skipGroup
  refine @Moves.bind _ _ _ _ inferInstance fun c => ?_
  -- Of the outcomes only a group that is closed consumes anything. The others complain.
  split <;> infer_instance

instance : Moves skipTypeArguments := by
  unfold skipTypeArguments
  refine @Moves.bind _ _ _ _ inferInstance fun o => ?_
  -- With a closing bracket everything up to it is consumed, and without one the `<` alone.
  cases o <;> infer_instance

instance : Moves atBreak := by unfold atBreak; infer_instance

instance (first : Bool) : Moves (statementRound first) := by
  unfold statementRound; infer_instance

instance (first : Bool) : Moves (expressionRound first) := by
  unfold expressionRound; infer_instance

instance : Moves skipStatement := by unfold skipStatement; infer_instance

instance : Moves skipExpression := by unfold skipExpression; infer_instance

/-! ## Types

The small rules come first, those that read a name, a modifier or a literal and those that only
look ahead. Behind them stand the rules that read types, with the parser for nested types as an
argument. -/

instance : Moves identifier := by unfold identifier; infer_instance

instance : Moves namePart := by unfold namePart; infer_instance

instance : Moves entityName := by unfold entityName; infer_instance

instance : Moves skipDecorators := by unfold skipDecorators; infer_instance

instance : Moves propertyName := by unfold propertyName; infer_instance

instance (test : Parser Bool) [Moves test] : Moves (modifierWord test) := by
  unfold modifierWord; infer_instance

instance (test : Parser Bool) [Moves test] : Moves (modifiersWhile test) := by
  unfold modifiersWhile; infer_instance

instance : Moves parameterName := by unfold parameterName; infer_instance

instance : Moves skipDefault := by unfold skipDefault; infer_instance

instance : Moves readonlyModifier := by unfold readonlyModifier; infer_instance

instance : Moves memberEnd := by unfold memberEnd; infer_instance

instance : Moves accessorAhead := by unfold accessorAhead; infer_instance

instance : Moves indexSignatureAhead := by unfold indexSignatureAhead; infer_instance

instance : Moves argumentsAhead := by unfold argumentsAhead; infer_instance

instance : Moves namedElementAhead := by unfold namedElementAhead; infer_instance

instance : Moves mappedTypeAhead := by unfold mappedTypeAhead; infer_instance

instance (a b : String) : Moves (skipEither a b) := by unfold skipEither; infer_instance

instance (start : Position) : Moves (literalType start) := by unfold literalType; infer_instance

instance (start : Position) : Moves (negativeType start) := by
  unfold negativeType; infer_instance

/-! What only looks ahead stays where it is, whatever it sees. A rule that decides by looking
ahead does not leave its place: nowhere in the grammar are tokens consumed to be given back. -/

instance : Moves extendsAhead := by unfold extendsAhead; infer_instance

instance : Moves functionTypeAhead := by
  unfold functionTypeAhead
  refine @Moves.bind _ _ _ _ inferInstance fun t => ?_
  refine @Moves.ite _ _ _ _ _ inferInstance (@Moves.ite _ _ _ _ _ ?_ inferInstance)
  refine @Moves.bind _ _ _ _ inferInstance fun o => ?_
  cases o <;> infer_instance

instance : Moves constructorTypeAhead := by unfold constructorTypeAhead; infer_instance

section Nested

variable (type : Parser TypeExpr) [Moves type] (start : Position)

/-! Here types begin to nest. Nothing is asked of the parser for the nested types but that it
moves, so these instances can be used at every level of nesting. First parameters and results,
then the members of object types, and then the types themselves in the order in which one rule
uses another. -/

instance (mark : String) : Moves (typeBehind mark type) := by unfold typeBehind; infer_instance

instance : Moves (parameter type) := by unfold parameter; infer_instance

instance : Moves (parameters type) := by unfold parameters; infer_instance

instance : Moves (typeParameter type) := by unfold typeParameter; infer_instance

instance : Moves (typeParameters? type) := by unfold typeParameters?; infer_instance

instance : Moves (returnType type) := by unfold returnType; infer_instance

instance : Moves (resultType? type) := by unfold resultType?; infer_instance

instance (construct : Bool) : Moves (callSignature type start construct) := by
  unfold callSignature; infer_instance

instance : Moves (indexSignature type start) := by unfold indexSignature; infer_instance

instance : Moves (accessorSignature type start) := by unfold accessorSignature; infer_instance

instance (modifiers : Modifiers) : Moves (namedMember type start modifiers) := by
  unfold namedMember; infer_instance

instance : Moves (member type) := by unfold member; infer_instance

instance : Moves (nextMember type) := by unfold nextMember; infer_instance

instance : Moves (members type) := by unfold members; infer_instance

instance : Moves (typeArguments type) := by unfold typeArguments; infer_instance

instance : Moves (typeArguments? type) := by unfold typeArguments?; infer_instance

instance : Moves (typeReference type) := by unfold typeReference; infer_instance

instance : Moves (tupleElement type) := by unfold tupleElement; infer_instance

instance : Moves (tupleType type start) := by unfold tupleType; infer_instance

instance : Moves (mappedParameter type) := by unfold mappedParameter; infer_instance

instance : Moves (mappedType type start) := by unfold mappedType; infer_instance

instance : Moves (typeQuery type start) := by unfold typeQuery; infer_instance

instance : Moves (wordType type start) := by unfold wordType; infer_instance

instance : Moves (parenthesizedType type start) := by unfold parenthesizedType; infer_instance

instance : Moves (bracedType type start) := by unfold bracedType; infer_instance

instance : Moves (markedType type start) := by unfold markedType; infer_instance

instance : Moves (atomType type) := by
  unfold atomType
  refine @Moves.bind _ _ _ _ inferInstance fun start => ?_
  refine @Moves.bind _ _ _ _ inferInstance fun t => ?_
  split <;> infer_instance

instance (t : TypeExpr) : Moves (bracketed? type t) := by unfold bracketed?; infer_instance

instance : Moves (postfixType type) := by unfold postfixType; infer_instance

/-! Unions and intersections are one rule with another separator and another node. If only one
member was read, it is the answer, so the list of the others has to be split. -/

instance (item : Parser TypeExpr) [Moves item] (separator : String)
    (build : Span → List TypeExpr → TypeExpr) : Moves (separated separator item build) := by
  unfold separated
  refine @Moves.bind _ _ _ _ inferInstance fun start => ?_
  refine @Moves.bind _ _ _ _ inferInstance fun _ => ?_
  refine @Moves.bind _ _ _ _ inferInstance fun first => ?_
  refine @Moves.bind _ _ _ _ inferInstance fun more => ?_
  cases more <;> infer_instance

instance : Moves (functionType type start) := by unfold functionType; infer_instance

instance : Moves (constructorType type start) := by unfold constructorType; infer_instance

end Nested

/-- The parsers for nested types move. The rules of the grammar call each other through this
record, so it is what a rule has to know about the others. -/
class NestedMoves (nested : Nested) : Prop where
  type : Moves nested.type
  union : Moves nested.union
  operator : Moves nested.operator

attribute [instance] NestedMoves.type NestedMoves.union NestedMoves.operator

section Levels

variable (nested : Nested) [NestedMoves nested]

instance : Moves (inferBound nested.union) := by unfold inferBound; infer_instance

instance : Moves (operatorType nested) := by unfold operatorType; infer_instance

instance : Moves (intersectionType nested) := by unfold intersectionType; infer_instance

instance : Moves (unionType nested) := by unfold unionType; infer_instance

instance (start : Position) : Moves (conditionalType nested start) := by
  unfold conditionalType; infer_instance

instance : Moves (anyType nested) := by unfold anyType; infer_instance

end Levels

/-- **The rules for types move, however deep types may nest.** The induction is on the number of
levels: with none left every rule fails, and with one more each is the rule of the grammar over
the levels below, which move by the instances above. -/
instance nested (n : Nat) : NestedMoves (nested n) := by
  induction n with
  | zero =>
    have hnone : Moves (throw .exhausted : Parser TypeExpr) := inferInstance
    exact ⟨hnone, hnone, hnone⟩
  | succ n ih =>
    exact ⟨inferInstanceAs (Moves (anyType (Parser.nested n))),
      inferInstanceAs (Moves (unionType (Parser.nested n))),
      inferInstanceAs (Moves (operatorType (Parser.nested n)))⟩

instance : Moves typeExpr := by unfold typeExpr; infer_instance

instance : Moves wholeType := by unfold wholeType; infer_instance

/-! ## Units

Above the types the grammar does not call itself, so there is nothing to count down: each rule
is unfolded, from the parts of a function or a class up to the statements of a unit. -/

instance : Moves statementMayEnd := by unfold statementMayEnd; infer_instance

instance : Moves semicolon := by unfold semicolon; infer_instance

instance : Moves functionBody := by unfold functionBody; infer_instance

instance : Moves arrowAhead := by
  unfold arrowAhead
  refine @Moves.bind _ _ _ _ inferInstance fun o => ?_
  cases o <;> infer_instance

instance : Moves genericArrowAhead := by
  unfold genericArrowAhead
  refine @Moves.bind _ _ _ _ inferInstance fun o => ?_
  cases o <;> infer_instance

/-! Functions that are values: an arrow function with its parameters and its body, and a function
expression. Which of them stands somewhere is decided by looking ahead. -/

instance : Moves bareParameter := by unfold bareParameter; infer_instance

instance : Moves arrowSignature := by unfold arrowSignature; infer_instance

instance : Moves arrowBody := by unfold arrowBody; infer_instance

instance (start : Position) (modifiers : Modifiers) : Moves (arrowFunction start modifiers) := by
  unfold arrowFunction; infer_instance

instance : Moves identifier? := by unfold identifier?; infer_instance

instance : Moves skipBlock := by unfold skipBlock; infer_instance

instance (start : Position) (modifiers : Modifiers) :
    Moves (functionExpression start modifiers) := by
  unfold functionExpression; infer_instance

instance : Moves asyncAhead := by unfold asyncAhead; infer_instance

instance : Moves asyncModifier := by unfold asyncModifier; infer_instance

instance : Moves arrowFunctionAhead := by unfold arrowFunctionAhead; infer_instance

instance : Moves initializer := by unfold initializer; infer_instance

/-! Classes. A member is chosen by its first words, which have been consumed when the rule for
it is run, so such a rule gets the place where the member started as an argument. It is only
used for the span of the node. -/

instance : Moves skipAccessorWord := by unfold skipAccessorWord; infer_instance

instance (start : Position) (modifiers : Modifiers) :
    Moves (constructorMember start modifiers) := by
  unfold constructorMember; infer_instance

instance (start : Position) : Moves (staticBlock start) := by unfold staticBlock; infer_instance

instance (start : Position) : Moves (indexMember start) := by unfold indexMember; infer_instance

instance (start : Position) (modifiers : Modifiers) :
    Moves (namedClassMember start modifiers) := by
  unfold namedClassMember; infer_instance

instance : Moves classMember := by unfold classMember; infer_instance

instance : Moves nextClassMember := by unfold nextClassMember; infer_instance

instance : Moves classMembers := by unfold classMembers; infer_instance

instance : Moves plainBase := by unfold plainBase; infer_instance

instance : Moves skipItem := by unfold skipItem; infer_instance

instance : Moves baseClass := by
  unfold baseClass
  refine @Moves.bind _ _ _ _ inferInstance fun o => ?_
  cases o <;> infer_instance

instance : Moves className := by unfold className; infer_instance

instance : Moves extendsClause := by unfold extendsClause; infer_instance

instance (word : String) : Moves (referencesBehind word) := by
  unfold referencesBehind; infer_instance

instance (start : Position) (modifiers : Modifiers) : Moves (classDecl start modifiers) := by
  unfold classDecl; infer_instance

instance (start : Position) (modifiers : Modifiers) : Moves (interfaceDecl start modifiers) := by
  unfold interfaceDecl; infer_instance

/-! Enumerations. The text of a value is cut out of the source between two places. Cutting reads
the source and not the tokens, so it stays where it is. -/

instance (start : Position) : Moves (sourceFrom start) := by unfold sourceFrom; infer_instance

instance : Moves enumMemberName := by unfold enumMemberName; infer_instance

instance : Moves enumMemberValue := by unfold enumMemberValue; infer_instance

instance : Moves enumMember := by unfold enumMember; infer_instance

instance (start : Position) (modifiers : Modifiers) : Moves (enumDecl start modifiers) := by
  unfold enumDecl; infer_instance

/-! Variables, and the other declarations that a word introduces. -/

instance : Moves bindingName := by unfold bindingName; infer_instance

instance : Moves initializer? := by unfold initializer?; infer_instance

instance : Moves declarator := by unfold declarator; infer_instance

instance : Moves declarator? := by unfold declarator?; infer_instance

instance : Moves nextDeclarator := by unfold nextDeclarator; infer_instance

instance : Moves declarators := by
  unfold declarators
  refine @Moves.bind _ _ _ _ inferInstance fun o => ?_
  cases o <;> infer_instance

instance : Moves variablesEnd := by unfold variablesEnd; infer_instance

instance (start : Position) (modifiers : Modifiers) : Moves (variableDecl start modifiers) := by
  unfold variableDecl; infer_instance

instance (start : Position) (modifiers : Modifiers) : Moves (functionDecl start modifiers) := by
  unfold functionDecl; infer_instance

instance (start : Position) (modifiers : Modifiers) : Moves (typeAlias start modifiers) := by
  unfold typeAlias; infer_instance

/-! Statements. One of them is chosen by its modifiers and the word behind them, and what is no
declaration is skipped. -/

instance (before : Modifiers) : Moves (modifierRound before) := by
  unfold modifierRound; infer_instance

instance : Moves statementModifiers := by unfold statementModifiers; infer_instance

instance (start : Position) (first : Text) : Moves (otherStatement start first) := by
  unfold otherStatement; infer_instance

instance (start : Position) (first : Text) : Moves (statementFrom start first) := by
  unfold statementFrom; infer_instance

instance : Moves statement? := by unfold statement?; infer_instance

instance : Moves nextStatement := by unfold nextStatement; infer_instance

instance (name : String) : Moves (sourceUnit name) := by unfold sourceUnit; infer_instance

end Exemplar.Parser.Moves
