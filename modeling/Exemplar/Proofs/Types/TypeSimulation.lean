import Exemplar.Proofs.Types.TypeBrackets
import Exemplar.Proofs.Types.LookAhead

/-!
# Types alongside types

A type is read twice, from two places with the same tokens ahead. The second reading simulates
the first, wherever the first one stops, and this module walks over the grammar of types to show
it once for all such relations between places.

Nearly every rule of the grammar asks for words that come behind no type, and so it does not
matter what comes behind the tokens that both sides have ahead (`TypeSigns`). Where a rule looks
two or three tokens ahead it does matter, and each relation has its own reason why both sides
see the same. These questions are what a relation has to supply (`TypeTests`); so are the three
rules with an initial value or a third token in them that may come close to the end
(`TypeRules`). For all other rules the judgment is found by unfolding them once.

A rule in brackets is followed as far as it stops where a token is left. The closing bracket is
expected, so with the brackets around it the rule is followed from anywhere.
-/

namespace Exemplar.Parser

open Exemplar.Tree
open Exemplar.Cursor (Alongside)

-- The search for an instance is as deep as the rule is long.
set_option synthInstance.maxSize 100000

variable {words : List Word} {R : Cursor → Cursor → Prop} [hR : Alongside words R]
  {k : Scope} {c c' d : Cursor}

/-! ## Words that come behind no type -/

/-- The words that the grammar of types asks for where a type may be over. -/
def typeSigns : List String :=
  [".", "@", "=", "(", "<", "...", "extends", "is", "[", "-", "&", "|", "new", "abstract"]

/-- No type goes on with any of the words, and no parameter starts with one as its modifier. -/
class TypeSigns (words : List Word) : Prop where
  is_eq_false : ∀ s ∈ typeSigns, ∀ w ∈ words, w.token.is s = false := by decide
  modifier : ∀ w ∈ words, isWordOf parameterModifiers w.token = false := by decide
  variance :
      ∀ w ∈ words, (w.token.is "const" || w.token.is "in" || w.token.is "out") = false := by
    decide

namespace Inert

variable [hw : TypeSigns words]
include hw

theorem of_mem {s : String} (hs : s ∈ typeSigns) : Inert words (·.is s) where
  blind _ := rfl
  eq_false := TypeSigns.is_eq_false s hs

instance : Inert words (·.is ".") := of_mem (by decide)

instance : Inert words (·.is "@") := of_mem (by decide)

instance : Inert words (·.is "=") := of_mem (by decide)

instance : Inert words (·.is "(") := of_mem (by decide)

instance : Inert words (·.is "<") := of_mem (by decide)

instance : Inert words (·.is "...") := of_mem (by decide)

instance : Inert words (·.is "extends") := of_mem (by decide)

instance : Inert words (·.is "is") := of_mem (by decide)

instance : Inert words (·.is "[") := of_mem (by decide)

instance : Inert words (·.is "-") := of_mem (by decide)

instance : Inert words (·.is "&") := of_mem (by decide)

instance : Inert words (·.is "|") := of_mem (by decide)

instance : Inert words (·.is "new") := of_mem (by decide)

instance : Inert words (·.is "abstract") := of_mem (by decide)

instance : Inert words (isWordOf parameterModifiers) where
  blind _ := rfl
  eq_false := TypeSigns.modifier

instance : Inert words (fun t => t.is "const" || t.is "in" || t.is "out") where
  blind _ := rfl
  eq_false := TypeSigns.variance

omit hw in
/-- A word on the same line. -/
instance inline (s : String) [h : Inert words (·.is s)] :
    Inert words (fun t => t.is s && !t.newlineBefore) where
  blind _ := rfl
  eq_false w hmem := by rw [h.eq_false w hmem, Bool.false_and]

end Inert

/-! ## Questions two tokens ahead -/

/-- Two tests on the current token and the one behind it are passed alike where a token is
left. -/
abbrev Foresees (R : Cursor → Cursor → Prop) (f g : Token → Bool) : Prop :=
  Simulates R R .token (ahead f g) (ahead f g)

/-- **What a relation between places has to supply for the grammar of types**: the questions that
look further ahead than the current token are answered alike where a token is left. -/
class TypeTests (R : Cursor → Cursor → Prop) : Prop where
  /-- A part of a dotted name. -/
  part : Foresees R (·.is ".") (·.isIdent) := by infer_instance
  /-- A modifier in front of a parameter. -/
  modifier : Foresees R (isWordOf parameterModifiers) startsBinding := by infer_instance
  /-- The variance of a type parameter. -/
  variance : Foresees R (fun t => t.is "const" || t.is "in" || t.is "out") (·.isIdent) := by
    infer_instance
  /-- A result that asserts something. -/
  assertion : Foresees R (·.is "asserts") (fun t => t.isIdent && !t.newlineBefore) := by
    infer_instance
  /-- A result that is a predicate. -/
  predicate : Foresees R (·.isIdent) (fun t => t.is "is" && !t.newlineBefore) := by
    infer_instance
  /-- A construct signature. -/
  construct : Foresees R (·.is "new") startsSignature := by infer_instance
  /-- A modifier in front of a key. -/
  readonly : Foresees R (·.is "readonly") startsKey := by infer_instance
  /-- An accessor. -/
  accessor : Foresees R (fun t => t.is "get" || t.is "set") startsKey := by infer_instance
  /-- A type query. -/
  query : Foresees R (·.is "typeof") (fun next => !next.is ".") := by infer_instance
  /-- A predefined type. -/
  predefined : Foresees R (fun t => t.isIdent && isPredefined t.text)
      (fun next => !next.is ".") := by
    infer_instance
  /-- A negative number. -/
  negative : Foresees R (·.is "-") (·.kind == .number) := by infer_instance
  /-- An operator in front of a type. -/
  operator : Foresees R isTypeOperator startsType := by infer_instance
  /-- A type that is inferred. -/
  inferred : Foresees R (·.is "infer") (·.isIdent) := by infer_instance
  /-- An abstract constructor type. -/
  abstracted : Foresees R (·.is "abstract") (·.is "new") := by infer_instance
  /-- An index signature. -/
  index : Simulates R R .token indexSignatureAhead indexSignatureAhead
  /-- A mapped type. -/
  mapped : Simulates R R .token mappedTypeAhead mappedTypeAhead
  /-- A function type. -/
  function : Simulates R R .token functionTypeAhead functionTypeAhead

attribute [instance] TypeTests.part TypeTests.modifier TypeTests.variance TypeTests.assertion
  TypeTests.predicate TypeTests.construct TypeTests.readonly TypeTests.accessor TypeTests.query
  TypeTests.predefined TypeTests.negative TypeTests.operator TypeTests.inferred
  TypeTests.abstracted TypeTests.index TypeTests.mapped TypeTests.function

namespace Simulates

variable [TypeSigns words] [TypeTests R]

/-! ## Names -/

instance : Simulates R R .anywhere identifier identifier :=
  have : Simulates R R .token identifier identifier := by unfold identifier; infer_instance
  of_needs

instance : Simulates R R .anywhere namePart namePart := by unfold namePart; infer_instance

instance : Simulates R R .anywhere entityName entityName := by
  unfold entityName; dsimp only; infer_instance

instance : Simulates R R .anywhere skipDecorators skipDecorators := by
  unfold skipDecorators; infer_instance

instance : Simulates R R .anywhere propertyName propertyName :=
  have : Simulates R R .token propertyName propertyName := by unfold propertyName; infer_instance
  of_needs

/-! ## Parts of parameters -/

instance (f g : Token → Bool) [OnTokens f] [Simulates R R .anywhere (ahead f g) (ahead f g)] :
    Simulates R R .anywhere (modifierWord (ahead f g)) (modifierWord (ahead f g)) := by
  unfold modifierWord; infer_instance

instance (f g : Token → Bool) [OnTokens f] [Simulates R R .anywhere (ahead f g) (ahead f g)] :
    Simulates R R .anywhere (modifiersWhile (ahead f g)) (modifiersWhile (ahead f g)) := by
  unfold modifiersWhile; infer_instance

instance : Simulates R R .token parameterName parameterName := by
  unfold parameterName; infer_instance

section Nested

variable {type type' : Parser TypeExpr} [Moves type] [Consumes type]
  [Simulates R R .anywhere type type']

instance (mark : String) [Inert words (·.is mark)] :
    Simulates R R .anywhere (typeBehind mark type) (typeBehind mark type') := by
  unfold typeBehind; infer_instance

instance (mark : String) :
    Simulates R R .inside (typeBehind mark type) (typeBehind mark type') := by
  unfold typeBehind; infer_instance

instance : Simulates R R .inside (typeParameter type) (typeParameter type') := by
  unfold typeParameter; infer_instance

instance : Simulates R R .anywhere (typeParameters? type) (typeParameters? type') := by
  unfold typeParameters?; infer_instance

instance : Simulates R R .anywhere (returnType type) (returnType type') :=
  have : Simulates R R .token (returnType type) (returnType type') := by
    unfold returnType; infer_instance
  of_needs

instance : Simulates R R .inside (resultType? type) (resultType? type') := by
  unfold resultType?; infer_instance

instance [Inert words (·.is ":")] :
    Simulates R R .anywhere (resultType? type) (resultType? type') := by
  unfold resultType?; infer_instance

end Nested

end Simulates

/-! ## Rules that are close to the end

An initial value in a parameter is skipped, and the element of a tuple is told from its first
three tokens. Both stand in brackets, but what that helps is a matter of the relation. -/

/-- **The rules that a relation has to supply** beside the questions: those with parameters in
them, and the elements of tuples. -/
class TypeRules (R : Cursor → Cursor → Prop) : Prop extends TypeTests R where
  parameters : ∀ {type type' : Parser TypeExpr} [Moves type] [Consumes type]
    [∀ f, Shuts 0 f type] [Simulates R R .anywhere type type'],
    Simulates R R .anywhere (parameters type) (parameters type')
  indexSignature : ∀ {type type' : Parser TypeExpr} [Moves type] [Consumes type]
    [∀ f, Shuts 0 f type] [Simulates R R .anywhere type type'] (start start' : Position),
    Simulates R R .inside (indexSignature type start) (indexSignature type' start')
  tupleElement : ∀ {type type' : Parser TypeExpr} [Moves type] [Consumes type]
    [∀ f, Shuts 0 f type] [Simulates R R .anywhere type type'],
    Simulates R R .inside (tupleElement type) (tupleElement type')

attribute [instance] TypeRules.parameters TypeRules.indexSignature TypeRules.tupleElement

namespace Simulates

variable [hwords : TypeSigns words] [hrules : TypeRules R]

/-! ## Members of interfaces and object types -/

instance : Simulates R R .token accessorAhead accessorAhead := by
  unfold accessorAhead; infer_instance

instance : Simulates R R .inside readonlyModifier readonlyModifier := by
  unfold readonlyModifier; infer_instance

instance : Simulates R R .inside memberEnd memberEnd := by unfold memberEnd; infer_instance

section Nested

variable {type type' : Parser TypeExpr} [Moves type] [Consumes type] [∀ f, Shuts 0 f type]
  [Simulates R R .anywhere type type'] (start start' : Position)

instance (b : Bool) :
    Simulates R R .inside (callSignature type start b) (callSignature type' start' b) := by
  unfold callSignature; infer_instance

instance : Simulates R R .inside (accessorSignature type start)
    (accessorSignature type' start') := by
  unfold accessorSignature; infer_instance

instance {ms ms' : Modifiers} [SameBare ms ms'] :
    Simulates R R .inside (namedMember type start ms) (namedMember type' start' ms') := by
  unfold namedMember; infer_instance

instance : Simulates R R .inside (member type) (member type') := by
  unfold member; infer_instance

instance : Simulates R R .inside (nextMember type) (nextMember type') := by
  unfold nextMember; infer_instance

instance : Simulates R R .anywhere (members type) (members type') := by
  unfold members; infer_instance

end Nested

/-! ## Atoms -/

instance : Simulates R R .anywhere argumentsAhead argumentsAhead :=
  test_anywhere (fun t => t.is "<" && !t.newlineBefore) fun _ => rfl

instance (a b : String) : Simulates R R .inside (skipEither a b) (skipEither a b) := by
  unfold skipEither; infer_instance

instance (start start' : Position) :
    Simulates R R .token (literalType start) (literalType start') := by
  unfold literalType; infer_instance

section Nested

variable {type type' : Parser TypeExpr} [Moves type] [Consumes type] [∀ f, Shuts 0 f type]
  [Simulates R R .anywhere type type'] (start start' : Position)

instance : Simulates R R .anywhere (typeArguments type) (typeArguments type') := by
  unfold typeArguments; infer_instance

instance : Simulates R R .anywhere (typeArguments? type) (typeArguments? type') := by
  unfold typeArguments?; infer_instance

instance : Simulates R R .anywhere (typeReference type) (typeReference type') := by
  unfold typeReference; infer_instance

instance : Simulates R R .token (typeQuery type start) (typeQuery type' start') := by
  unfold typeQuery; infer_instance

instance : Simulates R R .token (parenthesizedType type start)
    (parenthesizedType type' start') := by
  unfold parenthesizedType; infer_instance

instance : Simulates R R .anywhere (tupleType type start) (tupleType type' start') := by
  unfold tupleType; infer_instance

instance : Simulates R R .inside (mappedParameter type) (mappedParameter type') := by
  unfold mappedParameter; infer_instance

instance : Simulates R R .anywhere (mappedType type start) (mappedType type' start') := by
  unfold mappedType; infer_instance

instance : Simulates R R .token (bracedType type start) (bracedType type' start') := by
  unfold bracedType; infer_instance

instance : Simulates R R .token (markedType type start) (markedType type' start') := by
  unfold markedType negativeType; infer_instance

omit [Consumes type] [∀ f, Shuts 0 f type] in
include hR hwords in
/-- A type that starts with a word. The grammar asks whether the text of the token is a
predefined type, and it is asked here of a token that is known to be a word. -/
theorem wordType_of {a : TypeExpr} (hc : R c c')
    (hr : c.rest ≠ []) (hi : c.current.isIdent = true) (h : wordType type start c = .ok (a, d)) :
    EndsLike R (wordType type' start' c') a d := by
  have hsame := Alongside.current hc hr
  have hi' : c'.current.isIdent = true := ((Blind.congr fun _ => rfl) hsame).symm.trans hi
  unfold wordType at h ⊢
  rw [current_bind] at h
  rw [EndsLike, current_bind]
  refine EndsLike.bind (R := R) h (fun h₁ _ => ?_) ?_
  · rw [ahead_isPredefined (Alongside.clean hc) hi] at h₁
    rw [EndsLike, ahead_isPredefined (Alongside.clean' hc) hi']
    exact again .token hc h₁ hr
  · rintro b b' c₁ c₁' ⟨hb⟩ hc₁ h₁ h₂
    obtain rfl : b = b' := hb
    obtain rfl := Still.eq_of_ok h₁
    exact endsLike (k := .token) hc₁ h₂ hr

/-- **An atom is decided by the kind of its first token**, which is the same on both sides. -/
instance : Simulates R R .anywhere (atomType type) (atomType type') :=
  have : Simulates R R .token (atomType type) (atomType type') := {
    endsLike := fun {c c' d a} hc h hr => by
      have hsame := Alongside.current hc hr
      have hkind : c'.current.kind = c.current.kind := Token.kind_eq.symm
      unfold atomType at h ⊢
      rw [here_bind, current_bind] at h
      rw [EndsLike, here_bind, current_bind, hkind]
      cases hk : c.current.kind with
      | ident =>
        rw [hk] at h
        exact wordType_of _ _ hc hr (by rw [Token.isIdent, hk]; rfl) h
      | punct => rw [hk] at h; exact endsLike (k := .token) hc h hr
      | string | number | template => rw [hk] at h; exact endsLike (k := .token) hc h hr
      | regex | eof | illegal => rw [hk] at h; cases h }
  of_needs

instance {t t' : TypeExpr} [SameBare t t'] :
    Simulates R R .anywhere (bracketed? type t) (bracketed? type' t') := by
  unfold bracketed?; infer_instance

instance : Simulates R R .anywhere (postfixType type) (postfixType type') := by
  unfold postfixType; infer_instance

instance : Simulates R R .anywhere (functionType type start) (functionType type' start') := by
  unfold functionType; infer_instance

instance : Simulates R R .anywhere (constructorType type start)
    (constructorType type' start') := by
  unfold constructorType; infer_instance

end Nested

/-! ## Operators, unions and conditions -/

instance : Simulates R R .anywhere extendsAhead extendsAhead :=
  test_anywhere (fun t => t.is "extends" && !t.newlineBefore) fun _ => rfl

instance : Simulates R R .anywhere constructorTypeAhead constructorTypeAhead := by
  unfold constructorTypeAhead; infer_instance

omit hwords hrules in
/-- Items that are combined alike. A single item stays as it is, so the two sides have to combine
the same number of items; they do, because lists that are the same have the same length. -/
theorem separated (w : String) [Inert words (·.is w)] {item item' : Parser TypeExpr} [Moves item]
    [Simulates R R .anywhere item item'] {build : Span → List TypeExpr → TypeExpr}
    (hbuild : ∀ (s s' : Span) (r : BarePair (List TypeExpr)),
      SameBare (build s r.left) (build s' r.right)) :
    Simulates R R .anywhere (separated w item build) (separated w item' build) where
  endsLike {c c' d a} hc h _ := by
    unfold Parser.separated at h ⊢
    rw [here_bind] at h
    rw [EndsLike, here_bind]
    refine EndsLike.bind (R := R) h (fun h _ => again .anywhere hc h trivial) fun _ hc₁ _ h => ?_
    refine EndsLike.bind (R := R) h (fun h _ => endsLike (k := .anywhere) hc₁ h trivial) ?_
    intro first first' _ _ hfirst hc₂ _ h
    refine EndsLike.bind (R := R) h (fun h _ => endsLike (k := .anywhere) hc₂ h trivial) ?_
    intro l l' _ _ hl hc₃ _ h
    obtain ⟨rfl, rfl⟩ | ⟨t, t', l, l', rfl, rfl, ht, hl⟩ := hl.nil_or_cons
    · exact endsLike (k := .anywhere) hc₃ h trivial
    · have hsame (s : BarePair Span) :
          SameBare (build s.left (first :: t :: l)) (build s.right (first' :: t' :: l')) :=
        hbuild _ _ ⟨_, _, inferInstance⟩
      exact endsLike (k := .anywhere) hc₃ h trivial

/-! ## Levels -/

variable (R) in
/-- The parsers for nested types are simulated. -/
class NestedSimulates (nested nested' : Nested) : Prop where
  type : Simulates R R .anywhere nested.type nested'.type
  union : Simulates R R .anywhere nested.union nested'.union
  operator : Simulates R R .anywhere nested.operator nested'.operator

attribute [instance] NestedSimulates.type NestedSimulates.union NestedSimulates.operator

section Levels

variable {nested nested' : Nested} [Moves.NestedMoves nested] [NestedConsumes nested]
  [Shuts.NestedShuts nested] [NestedSimulates R nested nested'] (start start' : Position)

instance : Simulates R R .anywhere (inferBound nested.union) (inferBound nested'.union) := by
  unfold inferBound; infer_instance

instance : Simulates R R .anywhere (operatorType nested) (operatorType nested') :=
  have : Simulates R R .token (operatorType nested) (operatorType nested') := by
    unfold operatorType; infer_instance
  of_needs

instance : Simulates R R .anywhere (intersectionType nested) (intersectionType nested') :=
  separated "&" fun _ _ _ => inferInstance

instance : Simulates R R .anywhere (unionType nested) (unionType nested') :=
  separated "|" fun _ _ _ => inferInstance

instance : Simulates R R .anywhere (conditionalType nested start)
    (conditionalType nested' start') := by
  unfold conditionalType; infer_instance

instance : Simulates R R .anywhere (anyType nested) (anyType nested') :=
  have : Simulates R R .token (anyType nested) (anyType nested') := by
    unfold anyType; infer_instance
  of_needs

end Levels

include hR hwords in
/-- **A type is simulated where types may nest at least as deep.** The induction is on the depth
on the first side: a rule at one level uses the parsers of the level below, and the second side
has a level below as long as the first one has. -/
theorem nested {n m : Nat} (h : n ≤ m) :
    NestedSimulates R (Parser.nested n) (Parser.nested m) := by
  induction n generalizing m with
  | zero => exact ⟨⟨fun _ h => by cases h⟩, ⟨fun _ h => by cases h⟩, ⟨fun _ h => by cases h⟩⟩
  | succ n ih =>
    obtain ⟨m, rfl⟩ := Nat.exists_eq_add_one.2 (Nat.lt_of_lt_of_le (Nat.succ_pos n) h)
    have := ih (Nat.le_of_succ_le_succ h)
    constructor
    · exact inferInstanceAs
        (Simulates R R .anywhere (anyType (Parser.nested n)) (anyType (Parser.nested m)))
    · exact inferInstanceAs
        (Simulates R R .anywhere (unionType (Parser.nested n)) (unionType (Parser.nested m)))
    · exact inferInstanceAs
        (Simulates R R .anywhere (operatorType (Parser.nested n))
          (operatorType (Parser.nested m)))

/-- **A type is read alike from places with the same tokens ahead.** The second side has at
least as many tokens ahead, so types may nest at least as deep there. -/
instance : Simulates R R .anywhere typeExpr typeExpr where
  endsLike hc h hd :=
    (nested (Nat.succ_le_succ (Alongside.length_le hc))).type.endsLike hc h hd

end Simulates

end Exemplar.Parser
