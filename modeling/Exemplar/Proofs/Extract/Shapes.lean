import Exemplar.Extract.Declarations
import Exemplar.Proofs.Types.MappedTypes

/-!
# The shape of extracted types

A declaration takes types from three places of a unit: the parameters of a constructor, the
members of an interface, and the parameters of a function literal. All of them were read by the
grammar of types and mapped, so every type in them has the shape that rendering relies on. Where
a type is not written, or not inferred, it is `Ty.unknown`.

The way is that of the data. What a rule of the grammar answers has types of the right shape in
it (`Answers`), from the parameters up to the unit; then the unit is mapped to declarations, and
each of their types comes from one that the rules have answered. Of the parts of a unit from
which no declaration takes a type nothing is asked. For most of the rules it is enough to unfold
them, because the instances of `Builds` put the answers of their steps together.
-/

namespace Exemplar

open Exemplar.Tree Exemplar.Parser

/-- The types that stand directly in a declaration. -/
def Declaration.types : Declaration → List Ty
  | .ofClass _ _ parameters => parameters.map Param.type
  | .ofInterface _ _ fields methods =>
    fields.map Field.type ++ methods.flatMap fun m => m.parameters.map Param.type ++ [m.result]
  | .ofFunction _ parameters result => parameters.map Param.type ++ [result]

/-! ## What is kept of a unit

For each sort of node, that the types in it which are kept are well formed. Where a node holds
others, it is said of all of them. -/

/-- Everything in the types that are kept of a member of an interface is well formed. -/
def Tree.Member.Shaped (tables : Tables) : Member → Prop
  | .property _ _ _ _ type => type.Shaped tables
  | .method _ _ _ _ parameters type =>
    parameters.Forall (Parameter.Shaped tables) ∧ type.Shaped tables
  | _ => True

/-- Everything in the types that are kept of a member of a class is well formed. -/
def Tree.ClassMember.Shaped (tables : Tables) : ClassMember → Prop
  | .constructor _ _ parameters => parameters.Forall (Parameter.Shaped tables)
  | _ => True

/-- Everything in the types that are kept of an initial value is well formed. -/
def Tree.Expression.Shaped (tables : Tables) : Expression → Prop
  | .arrow _ _ _ parameters _ => parameters.Forall (Parameter.Shaped tables)
  | .function _ _ _ _ parameters _ => parameters.Forall (Parameter.Shaped tables)
  | .other _ => True

/-- Everything in the types that are kept of a variable is well formed. -/
structure Tree.Declarator.Shaped (tables : Tables) (d : Declarator) : Prop where
  /-- Everything in those of its initial value is. -/
  initializer : IfAny (Expression.Shaped tables) d.initializer

/-- Everything in the types that are kept of a statement is well formed. -/
def Tree.Statement.Shaped (tables : Tables) : Statement → Prop
  | .interfaceDecl i => i.members.Forall (Member.Shaped tables)
  | .classDecl c => c.members.Forall (ClassMember.Shaped tables)
  | .variables v => v.declarators.Forall (Declarator.Shaped tables)
  | _ => True

namespace Parser

variable {tables : Tables} {type : Parser TypeExpr} {start : Position} {modifiers : Modifiers}

-- The search for an instance is as deep as the rule is long.
set_option synthInstance.maxSize 100000

-- what a parser answers is read off its form here, and never off a run
attribute [local irreducible] Answers

/-! ## Interfaces

Only the properties and the methods of an interface count. Of its other members nothing is kept,
and so nothing is asked of them. -/

section Forgotten

variable {s : Span} {b : Bool} {generics : Option (List TypeParameter)}
  {parameters : List Parameter}
  {name : Option Identifier} {result : TypeExpr}

instance : Fact (Member.Shaped tables (.call s b generics parameters result)) := ⟨trivial⟩

instance : Fact (Member.Shaped tables (.accessor s b name parameters result)) := ⟨trivial⟩

instance : Fact (Member.Shaped tables (.index s parameters result)) := ⟨trivial⟩

instance : Fact (ClassMember.Shaped tables (.property s modifiers name result)) := ⟨trivial⟩

instance :
    Fact (ClassMember.Shaped tables (.method s modifiers name generics parameters result)) :=
  ⟨trivial⟩

instance : Fact (ClassMember.Shaped tables (.other s)) := ⟨trivial⟩

instance : Fact (Expression.Shaped tables (.other s)) := ⟨trivial⟩

end Forgotten

section

variable (h : Answers type (TypeExpr.OfLevel tables .any))
include h

/-- A property has one type, and a method has its parameters and its result. -/
theorem shaped_namedMember :
    Answers (namedMember type start modifiers) (Member.Shaped tables) := by
  refine Answers.bind fun name => ?_
  refine Answers.bind fun optional => ?_
  refine Answers.bind fun t => ?_
  refine Answers.ite ?method ?property
  case method =>
    refine Answers.bind fun generics => ?_
    refine Answers.seq (shaped_parameters h) fun params hparams => ?_
    refine Answers.seq (shaped_resultType? h) fun result hresult => ?_
    refine Answers.bind fun span => ?_
    exact Answers.pure ⟨hparams, hresult⟩
  case property =>
    refine Answers.seq (shaped_typeBehind h) fun written hwritten => ?_
    refine Answers.bind fun span => ?_
    exact Answers.pure hwritten

/-- Of the other members nothing is kept. -/
theorem shaped_member : Answers (member type) (Member.Shaped tables) := by
  refine Answers.bind fun start => ?_
  refine Answers.bind fun t => ?_
  refine Answers.ite Builds.answers ?_
  refine Answers.bind fun construct => ?_
  refine Answers.ite Builds.answers ?_
  refine Answers.bind fun modifiers => ?_
  refine Answers.bind fun accessor => ?_
  refine Answers.ite Builds.answers ?_
  refine Answers.bind fun index => ?_
  exact Answers.ite Builds.answers (shaped_namedMember h)

/-- A round answers a member, or none between two separators, or that there is no more. -/
theorem shaped_nextMember :
    Answers (nextMember type) (IfAny (IfAny (Member.Shaped tables))) := by
  refine Answers.bind fun closed => ?_
  refine Answers.ite (Answers.pure .none) ?_
  refine Answers.bind fun ended => ?_
  refine Answers.ite Answers.fail ?_
  refine Answers.bind fun semicolon => ?_
  refine Answers.ite (Answers.pure (.some .none)) ?_
  refine Answers.bind fun comma => ?_
  refine Answers.ite (Answers.pure (.some .none)) ?_
  refine Answers.seq (shaped_member h) fun m hm => ?_
  refine Answers.bind fun separator => ?_
  exact Answers.pure (.some (.some hm))

/-- The loop collects what the rounds answer. -/
theorem shaped_members : Answers (members type) (List.Forall (Member.Shaped tables)) := by
  refine Answers.bind fun opening => ?_
  refine Answers.seq (Answers.collect (shaped_nextMember h)) fun found hfound => ?_
  refine Answers.bind fun closing => ?_
  exact Answers.pure (forall_filterMap_id hfound)

end

/-- An interface has its members. -/
theorem shaped_interfaceDecl :
    Answers (interfaceDecl start modifiers) (Statement.Shaped tables) := by
  refine Answers.bind fun word => ?_
  refine Answers.bind fun name => ?_
  refine Answers.bind fun generics => ?_
  refine Answers.bind fun bases => ?_
  refine Answers.seq (shaped_members (ofLevel_typeExpr tables)) fun found hfound => ?_
  refine Answers.bind fun span => ?_
  exact Answers.pure hfound

/-! ## Classes

The types of a class are those of the parameters of its constructors. -/

/-- A constructor has parameters, and its body is skipped. -/
theorem shaped_constructorMember :
    Answers (constructorMember start modifiers) (ClassMember.Shaped tables) := by
  refine Answers.bind fun word => ?_
  refine Answers.seq (shaped_parameters (ofLevel_typeExpr tables)) fun params hparams => ?_
  refine Answers.bind fun body => ?_
  refine Answers.bind fun span => ?_
  exact Answers.pure hparams

/-- Of a class only the constructors count. -/
theorem shaped_classMember : Answers classMember (ClassMember.Shaped tables) := by
  have hstatic (s : Position) : Builds (ClassMember.Shaped tables) (staticBlock s) := by
    unfold staticBlock; infer_instance
  have hindex (s : Position) : Builds (ClassMember.Shaped tables) (indexMember s) := by
    unfold indexMember; infer_instance
  have hnamed (s : Position) (ms : Modifiers) :
      Builds (ClassMember.Shaped tables) (namedClassMember s ms) := by
    unfold namedClassMember; infer_instance
  refine Answers.bind fun start => ?_
  refine Answers.bind fun decorators => ?_
  refine Answers.bind fun isStatic => ?_
  refine Answers.ite Builds.answers ?_
  refine Answers.bind fun modifiers => ?_
  refine Answers.bind fun accessor => ?_
  refine Answers.bind fun generator => ?_
  refine Answers.bind fun isConstructor => ?_
  refine Answers.ite shaped_constructorMember ?_
  refine Answers.bind fun index => ?_
  exact Answers.ite Builds.answers Builds.answers

/-- A round over the members of a class. -/
theorem shaped_nextClassMember (tables : Tables) :
    Answers nextClassMember (IfAny (IfAny (ClassMember.Shaped tables))) := by
  refine Answers.bind fun closed => ?_
  refine Answers.ite (Answers.pure .none) ?_
  refine Answers.bind fun ended => ?_
  refine Answers.ite Answers.fail ?_
  refine Answers.bind fun semicolon => ?_
  refine Answers.ite (Answers.pure (.some .none)) ?_
  exact Answers.seq shaped_classMember fun m hm => Answers.pure (.some (.some hm))

/-- What a class extends and implements is read as well, and nothing is kept of it. -/
theorem shaped_classDecl : Answers (classDecl start modifiers) (Statement.Shaped tables) := by
  have hmembers : Answers classMembers (List.Forall (ClassMember.Shaped tables)) := by
    refine Answers.bind fun opening => ?_
    refine Answers.seq (Answers.collect (shaped_nextClassMember tables)) fun found hfound => ?_
    refine Answers.bind fun closing => ?_
    exact Answers.pure (forall_filterMap_id hfound)
  refine Answers.bind fun word => ?_
  refine Answers.bind fun name => ?_
  refine Answers.bind fun generics => ?_
  refine Answers.bind fun base => ?_
  refine Answers.bind fun interfaces => ?_
  refine Answers.seq hmembers fun found hfound => ?_
  refine Answers.bind fun span => ?_
  exact Answers.pure hfound

/-! ## Function literals

The types of a variable are those of the parameters of its initial value, if that is a function.
The type it is given, and the result type of the function, are not used. -/

/-- The parameters of a function expression. -/
theorem shaped_functionExpression :
    Answers (functionExpression start modifiers) (Expression.Shaped tables) := by
  refine Answers.bind fun word => ?_
  refine Answers.bind fun generator => ?_
  refine Answers.bind fun name => ?_
  refine Answers.bind fun generics => ?_
  refine Answers.seq (shaped_parameters (ofLevel_typeExpr tables)) fun params hparams => ?_
  refine Answers.bind fun result => ?_
  refine Answers.bind fun body => ?_
  refine Answers.bind fun span => ?_
  exact Answers.pure hparams

/-- The parameters in front of an arrow, in parentheses or as a single name. -/
theorem shaped_arrowFunction :
    Answers (arrowFunction start modifiers) (Expression.Shaped tables) := by
  -- a single name for the parameters has no type
  have hbare : Answers bareParameter (Parameter.Shaped tables) := by
    refine Answers.bind fun start => ?_
    refine Answers.bind fun name => ?_
    refine Answers.bind fun span => ?_
    exact Answers.pure ⟨TypeExpr.shaped_absent⟩
  have hsignature : Answers arrowSignature fun s => s.2.1.Forall (Parameter.Shaped tables) := by
    refine Answers.bind fun bare => ?_
    refine Answers.ite ?_ ?_
    · exact Answers.seq hbare fun param hparam => Answers.pure hparam
    · refine Answers.bind fun generics => ?_
      refine Answers.seq (shaped_parameters (ofLevel_typeExpr tables)) fun params hparams => ?_
      refine Answers.bind fun result => ?_
      exact Answers.pure hparams
  refine Answers.seq hsignature fun signature hparams => ?_
  refine Answers.bind fun arrow => ?_
  refine Answers.bind fun body => ?_
  refine Answers.bind fun span => ?_
  exact Answers.pure hparams

/-- An initial value is a function of either sort, or it is skipped. -/
theorem shaped_initializer : Answers initializer (Expression.Shaped tables) := by
  refine Answers.bind fun start => ?_
  refine Answers.bind fun modifiers => ?_
  refine Answers.bind fun function => ?_
  refine Answers.ite shaped_functionExpression ?_
  refine Answers.bind fun arrow => ?_
  exact Answers.ite shaped_arrowFunction Builds.answers

/-- A variable, if there is one. -/
theorem shaped_declarator? (tables : Tables) :
    Answers declarator? (IfAny (Declarator.Shaped tables)) := by
  have hvalue : Answers initializer? (IfAny (Expression.Shaped tables)) := by
    refine Answers.bind fun sign => ?_
    refine Answers.ite ?_ (Answers.pure .none)
    exact Answers.seq shaped_initializer fun value hvalue => Answers.pure (.some hvalue)
  have hdeclarator : Answers declarator (Declarator.Shaped tables) := by
    refine Answers.bind fun start => ?_
    refine Answers.bind fun name => ?_
    refine Answers.bind fun definite => ?_
    refine Answers.bind fun written => ?_
    refine Answers.seq hvalue fun value hvalue => ?_
    refine Answers.bind fun span => ?_
    exact Answers.pure ⟨hvalue⟩
  refine Answers.bind fun t => ?_
  refine Answers.ite ?_ (Answers.pure .none)
  exact Answers.seq hdeclarator fun d hd => Answers.pure (.some hd)

/-- The first variable and those behind commas. -/
theorem shaped_declarators (tables : Tables) :
    Answers declarators (List.Forall (Declarator.Shaped tables)) := by
  have hnext : Answers nextDeclarator (IfAny (Declarator.Shaped tables)) := by
    refine Answers.bind fun comma => ?_
    exact Answers.ite (shaped_declarator? tables) (Answers.pure .none)
  refine Answers.seq (shaped_declarator? tables) fun first hfirst => ?_
  cases hfirst with
  | none => exact Answers.pure trivial
  | some hd =>
    refine Answers.seq (Answers.collect hnext) fun more hmore => ?_
    exact Answers.pure ((List.forall_cons _ _ _).2 ⟨hd, hmore⟩)

/-- A declaration of variables. -/
theorem shaped_variableDecl :
    Answers (variableDecl start modifiers) (Statement.Shaped tables) := by
  refine Answers.bind fun keyword => ?_
  refine Answers.seq (shaped_declarators tables) fun found hfound => ?_
  refine Answers.bind fun ending => ?_
  refine Answers.bind fun span => ?_
  exact Answers.pure hfound

/-! ## Units

A statement is read by the rule for its first word, and it is one of the three from which
declarations are taken, or another one. -/

/-- Each sort of statement comes from the rule of that sort. -/
theorem shaped_statementFrom (start : Position) (first : Text) :
    Answers (statementFrom start first) (Statement.Shaped tables) := by
  refine Answers.statementFrom fun modifiers s => ?_
  match s with
  | .interfaceDecl _ => exact .inr shaped_interfaceDecl
  | .classDecl _ => exact .inr shaped_classDecl
  | .variables _ => exact .inr shaped_variableDecl
  -- of the other statements no type is kept
  | .enumDecl _ | .functionDecl _ | .typeAlias _ | .other _ _ => exact .inl trivial

/-- The statements of a unit, with those left out that are empty. -/
theorem shaped_sourceUnit (tables : Tables) (name : String) :
    Answers (sourceUnit name) fun u => u.statements.Forall (Statement.Shaped tables) := by
  have hstatement : Answers statement? (IfAny (Statement.Shaped tables)) := by
    refine Answers.bind fun start => ?_
    refine Answers.bind fun semicolon => ?_
    refine Answers.ite (Answers.pure .none) ?_
    refine Answers.bind fun decorators => ?_
    refine Answers.bind fun first => ?_
    exact Answers.seq (shaped_statementFrom start first.text) fun s hs => Answers.pure (.some hs)
  have hnext : Answers nextStatement (IfAny (IfAny (Statement.Shaped tables))) := by
    refine Answers.bind fun ended => ?_
    refine Answers.ite (Answers.pure .none) ?_
    exact Answers.seq hstatement fun s hs => Answers.pure (.some hs)
  refine Answers.bind fun start => ?_
  refine Answers.seq (Answers.collect hnext) fun found hfound => ?_
  refine Answers.bind fun span => ?_
  exact Answers.pure (forall_filterMap_id hfound)

end Parser

/-! ## Declarations

From here on nothing is read any more. Each type of a declaration is followed back to the node
it is mapped from. -/

variable {tables : Tables}

/-- The fields are the properties, and the methods those with a name; other members make no
entry. -/
theorem Tree.InterfaceDecl.shaped_declaration {i : InterfaceDecl}
    (h : i.members.Forall (Member.Shaped tables)) :
    ∀ t ∈ (i.declaration tables).types, t.Shaped tables := by
  rw [List.forall_iff_forall_mem] at h
  refine List.forall_mem_append.2 ⟨List.forall_mem_map.2 fun f hf => ?_, ?_⟩
  · obtain ⟨m, hm, hf⟩ := List.mem_filterMap.1 hf
    have hshaped := h m hm
    cases m with
    | property _ _ name _ type => cases hf; exact hshaped.toTy
    | _ => cases hf
  · rintro t ht
    obtain ⟨method, hmethod, ht⟩ := List.mem_flatMap.1 ht
    obtain ⟨m, hm, hmethod⟩ := List.mem_filterMap.1 hmethod
    have hshaped := h m hm
    cases m with
    | method _ name _ generics parameters type =>
      cases hmethod
      exact List.forall_mem_append.2 ⟨TypeExpr.shaped_mapParams hshaped.1,
        List.forall_mem_singleton.2 hshaped.2.toTy⟩ t ht
    | _ => cases hmethod

/-- A class makes a declaration for each of its constructors. -/
theorem Tree.ClassDecl.shaped_declarations {c : ClassDecl}
    (h : c.members.Forall (ClassMember.Shaped tables)) :
    ∀ d ∈ c.declarations tables, ∀ t ∈ d.types, t.Shaped tables := by
  rw [List.forall_iff_forall_mem] at h
  intro d hd
  obtain ⟨m, hm, hd⟩ := List.mem_filterMap.1 hd
  have hshaped := h m hm
  cases m with
  | constructor _ _ parameters => cases hd; exact TypeExpr.shaped_mapParams hshaped
  | _ => cases hd

/-- The first of the variables makes the declaration, if its initial value is a function. -/
theorem Tree.VariableDecl.shaped_declaration? {v : VariableDecl}
    (h : v.declarators.Forall (Declarator.Shaped tables)) :
    ∀ d ∈ v.declaration? tables, ∀ t ∈ d.types, t.Shaped tables := by
  rw [List.forall_iff_forall_mem] at h
  intro d hd
  obtain ⟨first, hfirst, hd⟩ := Option.bind_eq_some_iff.1 hd
  obtain ⟨value, hvalue, hd⟩ := Option.bind_eq_some_iff.1 hd
  obtain ⟨parameters, hparameters, hd⟩ := Option.bind_eq_some_iff.1 hd
  cases hd
  have hinitializer := (h first (List.mem_of_mem_head? hfirst)).initializer
  rw [hvalue] at hinitializer
  obtain - | hshaped := hinitializer
  have hparams : parameters.Forall (Parameter.Shaped tables) := by
    cases value with
    | arrow => cases hparameters; exact hshaped
    | function => cases hparameters; exact hshaped
    | other => cases hparameters
  exact List.forall_mem_append.2
    ⟨TypeExpr.shaped_mapParams hparams, List.forall_mem_singleton.2 Ty.shaped_unknown⟩

/-- **The types of a statement's declarations are well formed**, if those that are kept of it
are. -/
theorem Tree.Statement.shaped_declarations {s : Statement} (h : s.Shaped tables) :
    ∀ d ∈ s.declarations tables, ∀ t ∈ d.types, t.Shaped tables := by
  intro d hd
  cases s with
  | interfaceDecl i =>
    obtain rfl := List.mem_singleton.1 hd
    exact i.shaped_declaration h
  | classDecl c =>
    rw [Statement.declarations] at hd
    split at hd
    · exact c.shaped_declarations h d hd
    · exact absurd hd List.not_mem_nil
  | «variables» v =>
    rw [Statement.declarations] at hd
    split at hd
    · exact v.shaped_declaration? h d (Option.mem_toList.1 hd)
    · exact absurd hd List.not_mem_nil
  | _ => exact absurd hd List.not_mem_nil

/-- **Extracted types have the shape that rendering relies on.** Whatever the source and the
tables are, every type that occurs in a declaration is well formed: the types that stand
directly in it need no parentheses there, a union or an intersection has two members or more,
type arguments stand in named types only and have none of their own, and a class or an
enumeration is resolved as the tables say. -/
theorem Tree.SourceUnit.wellFormed_declarations {name : String} {source : Text} {u : SourceUnit}
    (h : SourceUnit.parse name source = .ok u) (tables : Tables) {d : Declaration}
    (hd : d ∈ u.declarations tables)
    {t s : Ty} (ht : t ∈ d.types) (hs : s.OccursIn t) : s.WellFormed tables := by
  obtain ⟨-, c', hrun⟩ := run_eq_ok h
  -- All that was read is well formed, and the declaration comes from one statement of it.
  have hstatements := List.forall_iff_forall_mem.1 (shaped_sourceUnit tables name hrun)
  obtain ⟨statement, hstatement, hd⟩ := List.mem_flatMap.1 hd
  exact Statement.shaped_declarations (hstatements statement hstatement) d hd t ht s hs

/-- A union of an array and an intersection, with type arguments in it. -/
theorem Tree.SourceUnit.wellFormed_declarations_union :
    ∃ u, SourceUnit.parse "a.ts" (Text.ofString "interface A { x: B[] | C<D> & Date }") = .ok u ∧
      ∃ d ∈ u.declarations .empty, ∃ t ∈ d.types,
        t.render = Text.ofString "B[] | C<D> & Date" ∧ t.WellFormed .empty := by
  have hany :
      (SourceUnit.parse "a.ts"
        (Text.ofString "interface A { x: B[] | C<D> & Date }")).toOption.any
      (fun u => (u.declarations .empty).any fun d => d.types.any fun t =>
        t.render == Text.ofString "B[] | C<D> & Date") = true := by
    rw [Text.ofString_ofList]
    decide +kernel
  obtain ⟨u, hu, htest⟩ := exists_ok_of_any _ hany
  obtain ⟨d, hd, htest⟩ := List.any_eq_true.1 htest
  obtain ⟨t, ht, hrender⟩ := List.any_eq_true.1 htest
  exact ⟨u, hu, d, hd, t, ht, eq_of_beq hrender,
    Tree.SourceUnit.wellFormed_declarations hu .empty hd ht .self⟩

end Exemplar
