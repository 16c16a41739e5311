import Exemplar.Proofs.Grammar.Answers
import Exemplar.Proofs.Grammar.NodeSpans

/-!
# The spans of types

Every rule of the grammar of types answers nodes that fit between where it starts and where it
stops. Most rules are unfolded once, and the instances for their parts do the rest. Three need a
word of their own. Brackets behind a type take it for the first part of a new node, which starts
where the type started; a mapped type closes the node of its parameter before it has read
everything in the brackets; and a single item between separators makes no node.

A node has a token because no rule for types succeeds without consuming one, which is said
first. It is not a matter of the rule alone: an atom is chosen by its first token before
anything is consumed, so that some rules only consume a token if there is one (`ConsumesAhead`),
and the rule above them knows that there is.

Then it is said for each form of tree what is under its node, in terms of the nodes of its parts
(`Closes`). A rule has collected these nodes while reading, and it has to put under the node a
selection of them in the order in which they were read. Last come the rules, from the atoms up.
They are parsers for types in terms of parsers for nested types, so they are proved for any such
parsers that fit, and the recursion over the levels of nesting is closed at the end.
-/

namespace Exemplar.Parser

open Exemplar.Tree

-- The search for an instance is as deep as the rule is long.
set_option synthInstance.maxSize 100000

/-! ## Types have tokens

A rule that consumes a token is one in which some step does, whatever the steps around it do.
The search for instances finds that step. -/

section Consuming

variable {α : Type} (type : Parser TypeExpr) [Moves type] (start : Position)

instance : Consumes parameterName := by unfold parameterName; infer_instance

instance (e : Halt) : Consumes (throw e : Parser α) where
  lt_of_ok _ h := by cases h

/-- Where a test promises a token, a parser that consumes one if it is left consumes one. If the
test fails, the other branch consumes one by itself. If it holds, it has found a token, which is
still there, or has been consumed by the test. -/
instance (priority := mid) Consumes.bind_definite {test : Parser Bool}
    {p q : Parser α} [Moves test]
    [Moves p] [Definite test] [ConsumesAhead p] [Consumes q] :
    Consumes (test >>= fun b => if b = true then p else q) where
  lt_of_ok hc h := by
    obtain ⟨b, c₁, h₁, h₂⟩ := bind_eq_ok.1 h
    have hle := Moves.length_le h₁
    cases b with
    | false => exact Nat.lt_of_lt_of_le (Consumes.lt_of_ok (p := q) (hc.of_ok h₁) h₂) hle
    | true =>
      rcases Definite.of_true hc h₁ with hr | hlt
      · exact Nat.lt_of_lt_of_le (ConsumesAhead.lt_of_ok (p := p) (hc.of_ok h₁) hr h₂) hle
      · exact Nat.lt_of_le_of_lt (Moves.length_le (p := p) h₂) hlt

instance [Consumes type] : Consumes (returnType type) := by unfold returnType; infer_instance

instance : Consumes (typeReference type) := by unfold typeReference; infer_instance

instance : ConsumesAhead (wordType type start) := by
  unfold wordType literalType typeQuery; infer_instance

instance : Consumes (members type) := by unfold members; infer_instance

instance : ConsumesAhead (markedType type start) := by
  unfold markedType negativeType parenthesizedType tupleType bracedType mappedType
  infer_instance

/-- At the end of the source no atom is read. Else the kind of the current token decides which
rule is taken, and those that are taken for a literal consume it. -/
instance : Consumes (atomType type) where
  lt_of_ok {c d a} hc h := by
    unfold atomType at h
    rw [here_bind, current_bind] at h
    by_cases hr : c.rest = []
    · rw [Cursor.current_of_nil hr, (hc.clean hr).kind] at h
      cases h
    cases hk : c.current.kind with
    | ident => rw [hk] at h; exact ConsumesAhead.lt_of_ok (p := wordType _ _) hc hr h
    | punct => rw [hk] at h; exact ConsumesAhead.lt_of_ok (p := markedType _ _) hc hr h
    | string | number | template =>
      rw [hk] at h
      unfold literalType at h
      exact ConsumesAhead.lt_of_ok hc hr h
    | regex | eof | illegal => rw [hk] at h; cases h

instance : Consumes (postfixType type) := by unfold postfixType; infer_instance

instance (w : String) (item : Parser TypeExpr) [Moves item] [Consumes item]
    (build : Span → List TypeExpr → TypeExpr) : Consumes (separated w item build) := by
  unfold separated
  refine @Consumes.bind_right _ _ _ _ inferInstance fun start => ?_
  refine @Consumes.bind_right _ _ _ _ inferInstance fun _ => ?_
  refine @Consumes.bind_left _ _ _ _ inferInstance inferInstance fun first => ?_
  refine @Moves.bind _ _ _ _ inferInstance fun more => ?_
  cases more <;> infer_instance

instance : Consumes (functionType type start) := by unfold functionType; infer_instance

instance : Consumes (constructorType type start) := by unfold constructorType; infer_instance

/-- The parsers for nested types consume a token. The three are those to which the rules return
inside of brackets and behind operators. -/
class NestedConsumes (nested : Nested) : Prop where
  type : Consumes nested.type
  union : Consumes nested.union
  operator : Consumes nested.operator

attribute [instance] NestedConsumes.type NestedConsumes.union NestedConsumes.operator

section Levels

variable (nested : Nested) [Moves.NestedMoves nested] [NestedConsumes nested]

instance : Consumes (operatorType nested) := by unfold operatorType; infer_instance

instance : Consumes (intersectionType nested) := by unfold intersectionType; infer_instance

instance : Consumes (unionType nested) := by unfold unionType; infer_instance

instance : Consumes (conditionalType nested start) := by unfold conditionalType; infer_instance

instance : Consumes (anyType nested) := by unfold anyType; infer_instance

end Levels

/-- At the innermost level they fail, and so consume what they have to. -/
instance NestedConsumes.nested (n : Nat) : NestedConsumes (nested n) := by
  induction n with
  | zero =>
    exact ⟨inferInstanceAs (Consumes (throw _)), inferInstanceAs (Consumes (throw _)),
      inferInstanceAs (Consumes (throw _))⟩
  | succ n ih =>
    exact ⟨inferInstanceAs (Consumes (anyType (Parser.nested n))),
      inferInstanceAs (Consumes (unionType (Parser.nested n))),
      inferInstanceAs (Consumes (operatorType (Parser.nested n)))⟩

instance : Consumes typeExpr := by unfold typeExpr; infer_instance

end Consuming


/-! ## What is under a node

The nodes under a node are those of its parts, in the order in which they are written in the
source. `Part` says that these are among the nodes that were collected, in this order. For the
lists inside of trees, their own functions are replaced by the general one first. -/

namespace Closes

variable {s : Span} {acc : List (List Node)} {t u : TypeExpr} {types : List TypeExpr}
  {ps : List Parameter} {gs : Option (List TypeParameter)}
  {n : Option Identifier} {i : Identifier}
  {x : Text} {a b : Bool} {ms : Modifiers} {p : TypeParameter}

instance : Closes s acc (TypeExpr.keyword s x) := ⟨[], rfl, List.nil_sublist _⟩

instance : Closes s acc (TypeExpr.literal s x) := ⟨[], rfl, List.nil_sublist _⟩

instance {as : Option (List TypeExpr)} [h : Part (nodes n ++ nodes as) acc] :
    Closes s acc (TypeExpr.reference s n as) := by
  refine ⟨nodes n ++ nodes as, ?_, h.sublist⟩
  cases as with
  | none => rfl
  | some l => exact congrArg (fun l => [Node.mk false s (nodes n ++ l)]) (typesNodes_eq l)

instance [h : Part (nodes gs ++ nodes ps ++ nodes t) acc] :
    Closes s acc (TypeExpr.function s gs ps t) :=
  ⟨nodes gs ++ nodes ps ++ nodes t,
    by rw [← genericsNodes_eq, ← parametersNodes_eq]; rfl, h.sublist⟩

instance [h : Part (nodes ps ++ nodes t) acc] : Closes s acc (TypeExpr.constructor s ps t) :=
  ⟨nodes ps ++ nodes t, by rw [← parametersNodes_eq]; rfl, h.sublist⟩

instance [h : Part (nodes types) acc] : Closes s acc (TypeExpr.union s types) :=
  ⟨nodes types, by rw [← typesNodes_eq]; rfl, h.sublist⟩

instance [h : Part (nodes types) acc] : Closes s acc (TypeExpr.intersection s types) :=
  ⟨nodes types, by rw [← typesNodes_eq]; rfl, h.sublist⟩

instance [h : Part (nodes types) acc] : Closes s acc (TypeExpr.tuple s types) :=
  ⟨nodes types, by rw [← typesNodes_eq]; rfl, h.sublist⟩

instance [h : Part (nodes t) acc] : Closes s acc (TypeExpr.array s t) := ⟨_, rfl, h.sublist⟩

instance [h : Part (nodes t) acc] : Closes s acc (TypeExpr.optional s t) := ⟨_, rfl, h.sublist⟩

instance [h : Part (nodes t) acc] : Closes s acc (TypeExpr.rest s t) := ⟨_, rfl, h.sublist⟩

instance [h : Part (nodes t) acc] : Closes s acc (TypeExpr.parenthesized s t) :=
  ⟨_, rfl, h.sublist⟩

instance [h : Part (nodes t) acc] : Closes s acc (TypeExpr.operator s x t) := ⟨_, rfl, h.sublist⟩

instance [h : Part (nodes t) acc] : Closes s acc (TypeExpr.predicate s x t) :=
  ⟨_, rfl, h.sublist⟩

instance [h : Part (nodes i ++ nodes t) acc] : Closes s acc (TypeExpr.namedElement s i a b t) :=
  ⟨_, rfl, h.sublist⟩

instance {l : List Member} [h : Part (nodes l) acc] : Closes s acc (TypeExpr.object s l) :=
  ⟨nodes l, by rw [← membersNodes_eq]; rfl, h.sublist⟩

instance [h : Part (nodes p ++ nodes t) acc] : Closes s acc (TypeExpr.mapped s p t) :=
  ⟨_, rfl, h.sublist⟩

instance {v w : TypeExpr} [h : Part (nodes t ++ nodes u ++ nodes v ++ nodes w) acc] :
    Closes s acc (TypeExpr.conditional s t u v w) :=
  ⟨_, rfl, h.sublist⟩

instance [h : Part (nodes t ++ nodes u) acc] : Closes s acc (TypeExpr.indexed s t u) :=
  ⟨_, rfl, h.sublist⟩

instance [h : Part (nodes i) acc] : Closes s acc (TypeExpr.query s i) := ⟨_, rfl, h.sublist⟩

instance [h : Part (nodes n ++ nodes t) acc] : Closes s acc (Parameter.mk s ms n a b t) :=
  ⟨_, rfl, h.sublist⟩

instance [h : Part (nodes i ++ nodes t ++ nodes u) acc] :
    Closes s acc (TypeParameter.mk s i t u) :=
  ⟨_, rfl, h.sublist⟩

instance [h : Part (nodes n ++ nodes t) acc] : Closes s acc (Member.property s ms n a t) :=
  ⟨_, rfl, h.sublist⟩

instance [h : Part (nodes n ++ nodes gs ++ nodes ps ++ nodes t) acc] :
    Closes s acc (Member.method s n a gs ps t) :=
  ⟨nodes n ++ nodes gs ++ nodes ps ++ nodes t,
    by rw [← genericsNodes_eq, ← parametersNodes_eq]; rfl, h.sublist⟩

instance [h : Part (nodes gs ++ nodes ps ++ nodes t) acc] :
    Closes s acc (Member.call s a gs ps t) :=
  ⟨nodes gs ++ nodes ps ++ nodes t,
    by rw [← genericsNodes_eq, ← parametersNodes_eq]; rfl, h.sublist⟩

instance [h : Part (nodes ps ++ nodes t) acc] : Closes s acc (Member.index s ps t) :=
  ⟨nodes ps ++ nodes t, by rw [← parametersNodes_eq]; rfl, h.sublist⟩

instance [h : Part (nodes n ++ nodes ps ++ nodes t) acc] :
    Closes s acc (Member.accessor s a n ps t) :=
  ⟨nodes n ++ nodes ps ++ nodes t, by rw [← parametersNodes_eq]; rfl, h.sublist⟩

end Closes

namespace Spanned

variable {start : Position} {k : Stage} {acc : List (List Node)}

/-! ## Parameters and members

The parser for types is a parameter here. It answers types that fit and consumes a token, and
these rules put the types into parameters, signatures and members. -/

instance : Spanned propertyName := by
  unfold propertyName
  exact .of_extends fun s => inferInstance

instance : Spanned parameterName := by
  unfold parameterName
  exact .of_extends fun s => inferInstance

section Nested

variable (type : Parser TypeExpr) [Moves type] [Consumes type] [Spanned type]

instance (w : String) : Spanned (typeBehind w type) := by
  unfold typeBehind
  exact .of_extends fun s => inferInstance

instance : Spanned (parameter type) := by
  unfold parameter
  exact .of_here fun s => inferInstance

instance : Spanned (parameters type) := by
  unfold parameters
  exact .of_extends fun s => inferInstance

instance : Spanned (typeParameter type) := by
  unfold typeParameter
  exact .of_here fun s => inferInstance

instance : Spanned (typeParameters? type) := by
  unfold typeParameters?
  exact .of_extends fun s => inferInstance

instance : Spanned (returnType type) := by
  have hconsumes : Consumes (returnType type) := inferInstance
  unfold returnType at hconsumes ⊢
  exact .of_here_consumes fun s => inferInstance

instance : Spanned (resultType? type) := by
  unfold resultType?
  exact .of_extends fun s => inferInstance

instance (b : Bool) : Extends start k acc (callSignature type start b) := by
  unfold callSignature
  exact Extends.of_anywhere inferInstance

instance : Extends start k acc (indexSignature type start) := by
  unfold indexSignature
  exact Extends.of_anywhere inferInstance

instance : Extends start k acc (accessorSignature type start) := by
  unfold accessorSignature
  exact Extends.of_anywhere inferInstance

instance (ms : Modifiers) : Extends start k acc (namedMember type start ms) := by
  unfold namedMember
  exact Extends.of_anywhere inferInstance

instance : Spanned (member type) := by
  unfold member
  exact .of_here fun s => inferInstance

instance : Spanned (nextMember type) := by
  unfold nextMember
  exact .of_extends fun s => inferInstance

instance : Spanned (members type) := by
  unfold members
  exact .of_extends fun s => inferInstance


/-! ## Atoms

A rule that starts with the place of its first token is a node from there on (`Extends`). Where
the rule is chosen by a token that is still to be consumed, the stage `ahead` remembers that
there is one. -/

instance : Spanned (typeArguments type) := by
  unfold typeArguments
  exact .of_extends fun s => inferInstance

instance : Spanned (typeArguments? type) := by
  unfold typeArguments?
  exact .of_extends fun s => inferInstance

instance : Spanned (typeReference type) := by
  unfold typeReference
  exact .of_here fun s => inferInstance

instance : Spanned (tupleElement type) := by
  unfold tupleElement
  exact .of_here fun s => inferInstance

instance : Extends start k acc (tupleType type start) := by
  unfold tupleType
  exact Extends.of_anywhere inferInstance

/-- The parameter of a mapped type is closed before the brackets are. Its node ends behind the
bound, where the rule is not yet finished, and it becomes a part of the node of the type. -/
instance : Spanned (mappedParameter type) := by
  unfold mappedParameter
  refine .of_extends fun _ => Extends.next fun _ => ?_
  refine @Extends.of_spanned _ _ _ _ _ _ (.of_here fun start => ?_)
  refine Extends.next_of_consumes fun name => Extends.next fun _ => Extends.next fun bound => ?_
  exact Extends.close_of (f := fun span => .mk span name bound .absent)
    (fun _ => Answers.bind fun renamed => Answers.bind fun closing => Answers.pure rfl)
    fun _ => inferInstance

instance : Extends start k acc (mappedType type start) := by
  unfold mappedType
  exact Extends.of_anywhere inferInstance

instance : Extends start .ahead acc (literalType start) := by
  unfold literalType
  exact Extends.of_nil inferInstance

instance : Extends start k acc (typeQuery type start) := by
  unfold typeQuery
  exact Extends.of_anywhere inferInstance

instance : Extends start .ahead acc (wordType type start) := by
  unfold wordType
  exact Extends.of_nil inferInstance

instance : Extends start k acc (parenthesizedType type start) := by
  unfold parenthesizedType
  exact Extends.of_anywhere inferInstance

instance : Extends start .ahead acc (negativeType start) := by
  unfold negativeType
  exact Extends.of_nil inferInstance

instance : Extends start k acc (bracedType type start) := by
  unfold bracedType
  exact Extends.of_anywhere inferInstance

instance : Extends start .ahead acc (markedType type start) := by
  unfold markedType
  exact Extends.of_nil inferInstance

instance : Spanned (atomType type) := by
  have hconsumes : Consumes (atomType type) := inferInstance
  unfold atomType at hconsumes ⊢
  refine .of_here_consumes fun s => Extends.next fun t => ?_
  split <;> infer_instance

instance : Extends start k acc (functionType type start) := by
  unfold functionType
  exact Extends.of_anywhere inferInstance

instance : Extends start k acc (constructorType type start) := by
  unfold constructorType
  exact Extends.of_anywhere inferInstance

end Nested

end Spanned

/-! ## Brackets behind a type

An array or an indexed type starts where the type in front of it started, which is not where the
rule for the brackets starts. So that it fits can only be said together with what is known of
the type in front. That this type is one node with its own span is said first, since the new
span starts with that of the node. -/

section Brackets

variable {type : Parser TypeExpr} {start : Position}

/-- There is a type. The type that is not there has no node, and it is the only one. -/
structure IsWritten (t : TypeExpr) : Prop where
  isAbsent_eq_false : t.isAbsent = false

/-- A type that is written has a node with its span. -/
theorem IsWritten.exists_nodes_eq {t : TypeExpr} (h : IsWritten t) :
    ∃ l, nodes t = [.mk false t.span l] := by
  cases t with
  | absent => cases h.isAbsent_eq_false
  | reference s n as => cases as <;> exact ⟨_, rfl⟩
  | _ => exact ⟨_, rfl⟩

section Forms

variable {s : Span} {t : TypeExpr} {i : Identifier} {n : Option Identifier} {x : Text}
  {types : List TypeExpr} {args : Option (List TypeExpr)} {p : TypeParameter} {ms : List Member}

instance : Fact (IsWritten (.keyword s x)) := ⟨⟨rfl⟩⟩

instance : Fact (IsWritten (.literal s x)) := ⟨⟨rfl⟩⟩

instance : Fact (IsWritten (.query s i)) := ⟨⟨rfl⟩⟩

instance : Fact (IsWritten (.reference s n args)) := ⟨⟨rfl⟩⟩

instance : Fact (IsWritten (.parenthesized s t)) := ⟨⟨rfl⟩⟩

instance : Fact (IsWritten (.tuple s types)) := ⟨⟨rfl⟩⟩

instance : Fact (IsWritten (.mapped s p t)) := ⟨⟨rfl⟩⟩

instance : Fact (IsWritten (.object s ms)) := ⟨⟨rfl⟩⟩

end Forms

instance : Builds IsWritten (wordType type start) := by unfold wordType; infer_instance

instance : Builds IsWritten (markedType type start) := by
  unfold markedType negativeType; infer_instance

/-- An atom is written, whatever kind of token it starts with: no kind leaves room for a type
that is not there. -/
theorem written_atomType : Answers (atomType type) IsWritten := by
  refine Answers.bind fun start => Answers.bind fun t => ?_
  cases t.kind with
  | ident => exact (inferInstance : Builds IsWritten (wordType type start)).answers
  | string | number | template =>
    exact (inferInstance : Builds IsWritten (literalType start)).answers
  | punct => exact (inferInstance : Builds IsWritten (markedType type start)).answers
  | regex | eof | illegal => exact Answers.fail

variable [Moves type] [Spanned type] {c d : Cursor} {s : Position} {t u : TypeExpr}

omit [Moves type] [Spanned type] in
/-- If a type has brackets behind it, there is a type with them. -/
theorem written_bracketed? : Answers (bracketed? type t) (IfAny IsWritten) := by
  refine Answers.bind fun next => Answers.ite ?brackets (Answers.pure .none)
  refine Answers.bind fun opening => Answers.bind fun closed => Answers.ite ?array ?indexed
  case array => exact Answers.bind fun span => Answers.pure (.some ⟨rfl⟩)
  case indexed =>
    refine Answers.bind fun index => ?_
    refine Answers.bind fun closing => ?_
    exact Answers.bind fun span => Answers.pure (.some ⟨rfl⟩)

/-- **A type with brackets starts where the type does**, and the type is the first thing under
it. The node of the type lies between the start and the cursor. So the rule for the brackets can
be taken to have started where the node does, with the node as the one part that it has read,
and it extends this. -/
theorem fits_bracketed? (hc : c.Visited) (hfits : c.Fits s (nodes t)) (ht : IsWritten t)
    (h : bracketed? type t c = .ok (some u, d)) : d.Fits s (nodes u) := by
  obtain ⟨l, hl⟩ := ht.exists_nodes_eq
  have hmem : Node.mk false t.span l ∈ nodes t := hl ▸ List.mem_singleton_self _
  obtain ⟨hskipped, -⟩ | ⟨hle, hstop, hsince⟩ := hfits.inside _ hmem
  · cases hskipped
  -- Seen from where the type starts, the type is the first part.
  have hstart : c.Fits t.span.start (collected [nodes t]) := by
    rw [collected_singleton]
    refine ⟨hfits.wellNested, fun n hn => ?_, hfits.ordered⟩
    rw [hl] at hn
    rw [List.mem_singleton.1 hn]
    exact .inr ⟨Nat.le_refl _, hstop, hsince⟩
  have hrule : Extends t.span.start .behind [nodes t] (bracketed? type t) := by
    unfold bracketed?; infer_instance
  exact (hrule.fits_of_ok hc hsince hstart h).of_le hle

/-- Brackets may follow brackets. The type with the first brackets is again a type in front of
brackets. -/
theorem fits_iterateUpTo_bracketed? {n : Nat} (hc : c.Visited) (hfits : c.Fits s (nodes t))
    (ht : IsWritten t) (h : iterateUpTo (bracketed? type) n t c = .ok (u, d)) :
    d.Fits s (nodes u) := by
  induction n generalizing t c with
  | zero => cases h
  | succ n ih =>
    obtain ⟨m, hm, ⟨rfl, h₁⟩ | ⟨v, c₁, h₁, h₂⟩⟩ := iterateUpTo_eq_ok h
    · exact hfits.trans hc (Moves.reaches_of_ok h₁)
    · cases hm
      obtain - | hv := written_bracketed? h₁
      exact ih (hc.of_ok h₁) (fits_bracketed? hc hfits ht h₁) hv h₂

/-- The atom fits, and so does it with its brackets. -/
instance [Consumes type] : Spanned (postfixType type) where
  fits_of_ok hc h := by
    obtain ⟨atom, c₁, h₁, h₂⟩ := bind_eq_ok.1 h
    rw [iterate_run] at h₂
    exact fits_iterateUpTo_bracketed? (hc.of_ok h₁) (Spanned.fits_of_ok hc h₁)
      (written_atomType h₁) h₂

end Brackets

/-! ## Operators, unions and conditions

The rest of the levels. Where a rule answers what a rule below has answered, without a node of
its own, it fits because that does. -/

namespace Spanned

/-- A single item is answered as it is; several are put under one node. Whether there is another
item is known when the first has been read. -/
theorem separated {item : Parser TypeExpr} [Moves item] [Consumes item]
    [Spanned item] (w : String)
    {build : Span → List TypeExpr → TypeExpr}
    (hbuild : ∀ span types acc, [Part (nodes types) acc] → Closes span acc (build span types)) :
    Spanned (separated w item build) := by
  unfold Parser.separated
  refine .of_here fun start => Extends.next fun _ => Extends.next_of_consumes fun first =>
    Extends.next fun more => ?_
  cases more with
  | nil => infer_instance
  | cons second more => exact @Extends.close _ _ _ _ _ fun span => hbuild span _ _

/-- The parsers for nested types answer nodes that fit. These are the parsers to which the rules
return. -/
class NestedSpanned (nested : Nested) : Prop where
  type : Spanned nested.type
  union : Spanned nested.union
  operator : Spanned nested.operator

attribute [instance] NestedSpanned.type NestedSpanned.union NestedSpanned.operator

instance (union : Parser TypeExpr) [Moves union] [Spanned union] :
    Spanned (inferBound union) := by
  unfold inferBound
  exact .of_extends fun s => inferInstance

section Levels

variable (nested : Nested) [Moves.NestedMoves nested]
  [NestedConsumes nested] [NestedSpanned nested]

/-- A type that is inferred has the span of the one parameter under it. -/
instance : Spanned (operatorType nested) := by
  unfold operatorType
  refine .of_here fun start => Extends.next fun t => Extends.next fun _ => ?_
  refine @Extends.ite _ _ _ _ _ _ _ _ _ inferInstance (Extends.next fun _ => ?_)
  refine @Extends.ite _ _ _ _ _ _ _ _ _ ?_ inferInstance
  refine Extends.next fun _ => Extends.next_of_consumes fun name => Extends.next fun bound => ?_
  exact Extends.close_both (f := fun span => TypeParameter.mk span name bound .absent)
    (fun _ => inferInstance) fun _ => rfl

instance : Spanned (intersectionType nested) := separated "&" fun _ _ _ _ => inferInstance

instance : Spanned (unionType nested) := separated "|" fun _ _ _ _ => inferInstance

instance (start : Position) (k : Stage) (acc : List (List Node)) :
    Extends start k acc (conditionalType nested start) := by
  unfold conditionalType
  exact Extends.of_anywhere inferInstance

instance : Spanned (anyType nested) := by
  unfold anyType
  exact .of_here fun start => inferInstance

end Levels

/-- The induction is on the level. At the innermost one nothing is read, and each level above is
made of the rules, given the level below. -/
instance NestedSpanned.nested (n : Nat) : NestedSpanned (nested n) := by
  have hthrow : ∀ e, Spanned (throw e : Parser TypeExpr) := fun e => ⟨fun _ h => by cases h⟩
  induction n with
  | zero => exact ⟨hthrow _, hthrow _, hthrow _⟩
  | succ n ih =>
    exact ⟨inferInstanceAs (Spanned (anyType (Parser.nested n))),
      inferInstanceAs (Spanned (unionType (Parser.nested n))),
      inferInstanceAs (Spanned (operatorType (Parser.nested n)))⟩

/-- **Types are read as nodes that fit.** -/
instance : Spanned typeExpr where
  fits_of_ok {c _ _} hc h :=
    Spanned.fits_of_ok (p := (Parser.nested (c.rest.length + 1)).type) hc h

end Spanned

end Exemplar.Parser
