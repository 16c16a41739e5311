import Exemplar.Proofs.Grammar.Answers
import Exemplar.Proofs.Types.ReadTypes

/-!
# The shape of mapped types

A type is rendered without parentheses, and what makes this right is a matter of which types
stand in which: no union, intersection or function in an array, no union or function in a union,
and so on. `Ty.WellFormed` says what may stand directly in a type, and what else is asked of a
type by itself: that a union has members to choose from, that a name is resolved as the tables
resolve it, and that type arguments have none of their own.

Nothing in the model rules the other types out. They do not arise because of two things
together. A level of the grammar reads only types of the levels below it (`Level.excluded`),
unless they are put in parentheses or stand behind an operator; and what stands there is not
decomposed, so it is mapped to `Ty.unknown`, which can stand everywhere.

So the proof has two parts. For each form of tree it is shown that its type is well formed if
the parts are of the right levels; that is about the mapping alone. Then the grammar is gone
through, from the atoms to the types of any form, and each rule is shown to answer with a tree
of its level. A rule is a sequence of steps, most of which read a mark and answer nothing of
interest, so only those are named whose answers stand in the tree.
-/

namespace Exemplar

open Exemplar.Tree Exemplar.Parser

/-! ## Types in types

Arguments can have arguments in the model, so what stands in them has to be collected at every
depth. -/

mutual

/-- The types that stand in a type argument. -/
def GenericArgument.parts : GenericArgument → List Ty
  | .mk type generics => type :: argumentsParts generics

/-- The types that stand in type arguments. -/
def argumentsParts : List GenericArgument → List Ty
  | [] => []
  | a :: rest => a.parts ++ argumentsParts rest

end

/-- The types that stand directly in a type. -/
def Ty.parts : Ty → List Ty
  | .user _ generics => argumentsParts generics
  | .generic argument => argument.parts
  | .array element => [element]
  | .tuple elements => elements
  | .union elements => elements
  | .intersection elements => elements
  | .arrow parameters result => parameters.map Param.type ++ [result]
  | _ => []

/-- A type occurs in a type if it is the type, or occurs in a type that stands in it. -/
inductive Ty.OccursIn (s : Ty) : Ty → Prop
  /-- It is the type. -/
  | self : OccursIn s s
  /-- It occurs in a part of the type. -/
  | part {p t : Ty} (hp : p ∈ t.parts) (h : OccursIn s p) : OccursIn s t

/-- A type has the form that rendering relies on, as far as the types that stand directly in it
go. -/
def Ty.WellFormed (tables : Tables) : Ty → Prop
  | .array element => element.kind ∉ [Kind.union, Kind.intersection, Kind.arrow]
  | .union elements => 2 ≤ elements.length ∧ ∀ t ∈ elements, t.kind ∉ [Kind.union, Kind.arrow]
  | .intersection elements =>
    2 ≤ elements.length ∧ ∀ t ∈ elements, t.kind ∉ [Kind.union, Kind.intersection, Kind.arrow]
  | .user _ generics => ∀ a ∈ generics, ∃ t, a = .mk t []
  | .generic _ => False
  | .builtIn name => isBuiltIn name = true ∨ tables.isElementary name = true
  | .enum name values => tables.enumValues? name = some values
  | _ => True

/-- Every type that occurs in a type is well formed. -/
def Ty.Shaped (tables : Tables) (t : Ty) : Prop := ∀ s : Ty, s.OccursIn t → s.WellFormed tables

/-- **The shape of a type is that of its parts.** -/
theorem Ty.Shaped.intro {tables : Tables} {t : Ty} (h : t.WellFormed tables)
    (hparts : ∀ p ∈ t.parts, p.Shaped tables) : t.Shaped tables := by
  intro s hs
  cases hs with
  | self => exact h
  | part hp hs => exact hparts _ hp s hs

/-- Arguments without arguments have their types as parts. -/
theorem argumentsParts_map_mk (types : List Ty) :
    argumentsParts (types.map (.mk · [])) = types := by
  induction types with
  | nil => rfl
  | cons t types ih => rw [List.map_cons, argumentsParts, ih]; rfl

/-! ## Levels

The kinds that are excluded at a level are those that would need parentheses there. They grow
towards the atoms, so a type of a lower level is one of every higher one. -/

/-- The forms that a level of the grammar does not read. -/
def Level.excluded : Level → List Ty.Kind
  | .atom | .operand => [.union, .intersection, .arrow]
  | .factor => [.union, .arrow]
  | .union => [.arrow]
  | .any => []

/-- A tree is there, and it is mapped to a type of the level in which everything is well
formed. -/
structure Tree.TypeExpr.OfLevel (tables : Tables) (l : Level) (n : TypeExpr) : Prop where
  /-- It is there. -/
  isAbsent : n.isAbsent = false
  /-- Its type is of the level. -/
  kind : (n.toTy tables).kind ∉ l.excluded
  /-- Everything in its type is well formed. -/
  shaped : (n.toTy tables).Shaped tables

/-- Everything in the type of a tree is well formed, whether the tree is there or not. -/
structure Tree.TypeExpr.Shaped (tables : Tables) (n : TypeExpr) : Prop where
  /-- Everything in its type is. -/
  toTy : (n.toTy tables).Shaped tables

/-- Everything in the type of a parameter is well formed. -/
structure Tree.Parameter.Shaped (tables : Tables) (p : Parameter) : Prop where
  /-- Everything in its annotation is. -/
  type : p.type.Shaped tables

section

variable {tables : Tables} {l l' : Level} {n : TypeExpr} {nodes : List TypeExpr} {s : Span}

/-- A type of which nothing is known has no parts. -/
theorem Ty.shaped_unknown : Ty.Shaped tables .unknown := .intro trivial nofun

namespace Tree.TypeExpr

/-- A tree that is missing is mapped to it. -/
theorem shaped_absent : Shaped tables absent := ⟨Ty.shaped_unknown⟩

/-- What is of a level is well formed. -/
theorem OfLevel.toShaped (h : n.OfLevel tables l) : n.Shaped tables := ⟨h.shaped⟩

/-- What is of a level is of those that read it. -/
theorem OfLevel.mono (h : n.OfLevel tables l) (hl : l'.excluded ⊆ l.excluded) :
    n.OfLevel tables l' :=
  ⟨h.isAbsent, fun hk => h.kind (hl hk), h.shaped⟩

/-- **What is not decomposed is of every level.** -/
theorem OfLevel.of_undivided (h : Undivided tables n) (l : Level) : n.OfLevel tables l := by
  refine ⟨h.2, ?_, ?_⟩
  · rw [h.1]
    cases l <;> decide
  · rw [h.1]
    exact Ty.shaped_unknown

/-- Types that are there are mapped one by one. -/
theorem forall_mapTypes {P : Ty → Prop} (h : nodes.Forall (OfLevel tables l))
    (hP : ∀ n : TypeExpr, n.OfLevel tables l → P (n.toTy tables)) :
    ∀ t ∈ mapTypes tables nodes, P t := by
  rw [List.forall_iff_forall_mem] at h
  rw [mapTypes_eq_map fun n hn => (h n hn).isAbsent]
  exact List.forall_mem_map.2 fun n hn => hP n (h n hn)

/-- So none of them is lost. -/
theorem length_mapTypes (h : nodes.Forall (OfLevel tables l)) :
    (mapTypes tables nodes).length = nodes.length := by
  rw [List.forall_iff_forall_mem] at h
  rw [mapTypes_eq_map fun n hn => (h n hn).isAbsent, List.length_map]

/-! ## Forms

A form is of the level at which the grammar reads it, and its parts are of the levels at which
they are read. -/

/-- **A name is resolved as the tables say**, and its arguments have none of their own. -/
theorem shaped_ofName (tables : Tables) (name : Text) {types : List Ty}
    (h : ∀ t ∈ types, t.Shaped tables) :
    (Ty.ofName tables name types).kind ∉ Level.operand.excluded ∧
    (Ty.ofName tables name types).Shaped tables := by
  unfold Ty.ofName
  split
  · rename_i hknown
    exact ⟨(by decide : Ty.Kind.builtIn ∉ _), .intro ((Bool.or_eq_true _ _).mp hknown) nofun⟩
  split
  · rename_i values hvalues
    exact ⟨(by decide : Ty.Kind.enum ∉ _), .intro hvalues nofun⟩
  · refine ⟨(by decide : Ty.Kind.user ∉ _), .intro ?_ ?_⟩
    · exact List.forall_mem_map.2 fun t _ => ⟨t, rfl⟩
    · rw [Ty.parts, argumentsParts_map_mk]
      exact h

/-- A keyword is mapped to a type without parts. -/
theorem shaped_ofKeyword (tables : Tables) (word : Text) :
    (Ty.ofKeyword word).kind ∉ Level.operand.excluded ∧ (Ty.ofKeyword word).Shaped tables := by
  have hsymbol : isBuiltIn (Text.ofString "Symbol") = true :=
    List.any_eq_true.2 ⟨"Symbol", by simp [builtInClasses], beq_self_eq_true _⟩
  unfold Ty.ofKeyword
  repeat' split
  · exact ⟨(by decide : Ty.Kind.string ∉ _), .intro trivial nofun⟩
  · exact ⟨(by decide : Ty.Kind.number ∉ _), .intro trivial nofun⟩
  · exact ⟨(by decide : Ty.Kind.boolean ∉ _), .intro trivial nofun⟩
  · exact ⟨(by decide : Ty.Kind.void ∉ _), .intro trivial nofun⟩
  · exact ⟨(by decide : Ty.Kind.builtIn ∉ _), .intro (.inl hsymbol) nofun⟩
  · exact ⟨(by decide : Ty.Kind.user ∉ _), .intro nofun nofun⟩
  · exact ⟨(by decide : Ty.Kind.unknown ∉ _), Ty.shaped_unknown⟩

/-- A keyword is an operand. -/
theorem ofLevel_keyword (s : Span) (word : Text) : (keyword s word).OfLevel tables .operand := by
  obtain ⟨hkind, hshaped⟩ := shaped_ofKeyword tables word
  exact ⟨rfl, hkind, hshaped⟩

/-- So is a name, with arguments of any form. -/
theorem ofLevel_reference (name : Option Identifier) {arguments : Option (List TypeExpr)}
    (h : IfAny (List.Forall (OfLevel tables .any)) arguments) :
    (reference s name arguments).OfLevel tables .operand := by
  cases h with
  | none =>
    obtain ⟨hkind, hshaped⟩ := shaped_ofName tables (identifierText name) (List.forall_mem_nil _)
    exact ⟨rfl, hkind, hshaped⟩
  | some hnodes =>
    obtain ⟨hkind, hshaped⟩ := shaped_ofName tables (identifierText name)
      (forall_mapTypes hnodes fun _ hn => hn.shaped)
    exact ⟨rfl, hkind, hshaped⟩

/-- An array is an operand if its elements are. -/
theorem ofLevel_array (h : n.OfLevel tables .operand) : (array s n).OfLevel tables .operand :=
  ⟨rfl, (by decide : Ty.Kind.array ∉ _), .intro h.kind (List.forall_mem_singleton.2 h.shaped)⟩

/-- A tuple is one, whatever its elements are. -/
theorem ofLevel_tuple (h : nodes.Forall (OfLevel tables .any)) :
    (tuple s nodes).OfLevel tables .operand :=
  ⟨rfl, (by decide : Ty.Kind.tuple ∉ _),
    .intro trivial (forall_mapTypes h fun _ hn => hn.shaped)⟩

/-- Operands make an intersection. -/
theorem ofLevel_intersection (h : nodes.Forall (OfLevel tables .operand))
    (hl : 2 ≤ nodes.length) :
    (intersection s nodes).OfLevel tables .factor := by
  refine ⟨rfl, (by decide : Ty.Kind.intersection ∉ _),
    .intro ⟨?_, forall_mapTypes h fun _ hn => hn.kind⟩ ?_⟩
  · rwa [length_mapTypes h]
  · exact forall_mapTypes h fun _ hn => hn.shaped

/-- Operands and intersections make a union. -/
theorem ofLevel_union (h : nodes.Forall (OfLevel tables .factor)) (hl : 2 ≤ nodes.length) :
    (union s nodes).OfLevel tables .union := by
  refine ⟨rfl, (by decide : Ty.Kind.union ∉ _),
    .intro ⟨?_, forall_mapTypes h fun _ hn => hn.kind⟩ ?_⟩
  · rwa [length_mapTypes h]
  · exact forall_mapTypes h fun _ hn => hn.shaped

/-- The types of parameters are those of the mapped parameters. -/
theorem shaped_mapParams {parameters : List Parameter}
    (h : parameters.Forall (Parameter.Shaped tables)) :
    ∀ t ∈ (mapParams tables parameters).map Param.type, t.Shaped tables := by
  rw [List.forall_iff_forall_mem] at h
  rw [mapParams_eq_map, List.map_map]
  refine List.forall_mem_map.2 fun p hp => ?_
  cases p
  exact (h _ hp).type.toTy

/-- A function is of no level but the last. -/
theorem ofLevel_function {generics : Option (List TypeParameter)}
    {parameters : List Parameter} {result : TypeExpr}
    (hp : parameters.Forall (Parameter.Shaped tables)) (hr : result.Shaped tables) :
    (function s generics parameters result).OfLevel tables .any :=
  ⟨rfl, List.not_mem_nil, .intro trivial
    (List.forall_mem_append.2 ⟨shaped_mapParams hp, List.forall_mem_singleton.2 hr.toTy⟩)⟩

end Tree.TypeExpr

end

namespace Parser

open TypeExpr

variable {tables : Tables} {type : Parser TypeExpr} {nested' : Nested} {start : Position}

/-! ## Types as they are read

Each rule is taken apart in the order in which it reads. A part whose type counts is taken with
what is known of it; of the others the answer is only given a name. -/

/-- What is built of forms that are not decomposed is of every level. -/
theorem ofLevel_of_builds {p : Parser TypeExpr} {l : Level} [hp : Builds (Undivided tables) p] :
    Answers p (OfLevel tables l) :=
  fun h => .of_undivided (hp.answers h) l

/-- Of parts between brackets only this is needed. -/
theorem shaped_of_ofLevel {p : Parser TypeExpr} {l : Level} (h : Answers p (OfLevel tables l)) :
    Answers p (TypeExpr.Shaped tables) :=
  fun hp => (h hp).toShaped

-- what a parser answers is read off its form from here on, and never off a run
attribute [local irreducible] Answers

section

variable (h : Answers type (OfLevel tables .any))
include h

/-- A type behind a mark, if the mark is there. -/
theorem shaped_typeBehind {mark : String} :
    Answers (typeBehind mark type) (TypeExpr.Shaped tables) := by
  refine Answers.bind fun marked => ?_
  exact Answers.ite (shaped_of_ofLevel h) (Answers.pure shaped_absent)

/-- A parameter has a type behind a colon, or none. -/
theorem shaped_parameter : Answers (parameter type) (Parameter.Shaped tables) := by
  refine Answers.bind fun start => ?_
  refine Answers.bind fun decorators => ?_
  refine Answers.bind fun modifiers => ?_
  refine Answers.bind fun rest => ?_
  refine Answers.bind fun name => ?_
  refine Answers.bind fun optional => ?_
  refine Answers.seq (shaped_typeBehind h) fun written hwritten => ?_
  refine Answers.bind fun fallback => ?_
  refine Answers.bind fun span => ?_
  exact Answers.pure ⟨hwritten⟩

/-- Parameters are a list of those. -/
theorem shaped_parameters :
    Answers (parameters type) (List.Forall (Parameter.Shaped tables)) := by
  refine Answers.bind fun opening => ?_
  refine Answers.seq (Answers.commaList (shaped_parameter h)) fun params hparams => ?_
  refine Answers.bind fun closing => ?_
  exact Answers.pure hparams

/-- A predicate is not decomposed, so a result is either that or a type. -/
theorem ofLevel_returnType : Answers (returnType type) (OfLevel tables .any) := by
  refine Answers.bind fun start => ?_
  refine Answers.bind fun asserts => ?_
  refine Answers.ite ofLevel_of_builds ?_
  refine Answers.bind fun predicate => ?_
  exact Answers.ite ofLevel_of_builds h

/-- A result may be missing. -/
theorem shaped_resultType? : Answers (resultType? type) (TypeExpr.Shaped tables) := by
  refine Answers.bind fun colon => ?_
  exact Answers.ite (shaped_of_ofLevel (ofLevel_returnType h)) (Answers.pure shaped_absent)

/-! ## Atoms

An atom is told by its first token. -/

/-- Arguments are types of any form. -/
theorem ofLevel_typeArguments :
    Answers (typeArguments type) (List.Forall (OfLevel tables .any)) := by
  refine Answers.bind fun opening => ?_
  refine Answers.seq (Answers.commaList h) fun args hargs => ?_
  refine Answers.bind fun closing => ?_
  exact Answers.pure hargs

/-- A reference is a name, with or without arguments. -/
theorem ofLevel_typeReference : Answers (typeReference type) (OfLevel tables .operand) := by
  have harguments? :
      Answers (typeArguments? type) (IfAny (List.Forall (OfLevel tables .any))) := by
    refine Answers.bind fun ahead => ?_
    refine Answers.ite ?_ (Answers.pure .none)
    exact Answers.seq (ofLevel_typeArguments h) fun args hargs => Answers.pure (.some hargs)
  refine Answers.bind fun start => ?_
  refine Answers.bind fun name => ?_
  refine Answers.seq harguments? fun args hargs => ?_
  refine Answers.bind fun span => ?_
  exact Answers.pure (ofLevel_reference _ hargs)

/-- Named, optional and rest elements are not decomposed. What is left is a type by itself. -/
theorem ofLevel_tupleElement : Answers (tupleElement type) (OfLevel tables .any) := by
  refine Answers.bind fun start => ?_
  refine Answers.bind fun namedRest => ?_
  refine Answers.ite ofLevel_of_builds ?_
  refine Answers.bind fun rest => ?_
  refine Answers.ite ofLevel_of_builds ?_
  refine Answers.bind fun named => ?_
  refine Answers.ite ofLevel_of_builds ?_
  refine Answers.seq h fun t ht => ?_
  refine Answers.bind fun optional => ?_
  exact Answers.ite ofLevel_of_builds (Answers.pure ht)

/-- A tuple lists its elements. -/
theorem ofLevel_tupleType : Answers (tupleType type start) (OfLevel tables .operand) := by
  refine Answers.bind fun opening => ?_
  refine Answers.seq (Answers.commaList (ofLevel_tupleElement h)) fun elements helements => ?_
  refine Answers.bind fun closing => ?_
  refine Answers.bind fun span => ?_
  exact Answers.pure (ofLevel_tuple helements)

/-- A word is a keyword, an operator or a name. -/
theorem ofLevel_wordType : Answers (wordType type start) (OfLevel tables .operand) := by
  refine Answers.bind fun t => ?_
  refine Answers.bind fun predefined => ?_
  refine Answers.ite ?keyword (Answers.ite ofLevel_of_builds ?_)
  case keyword =>
    refine Answers.bind fun word => ?_
    refine Answers.bind fun span => ?_
    exact Answers.pure (ofLevel_keyword _ _)
  refine Answers.bind fun query => ?_
  exact Answers.ite ofLevel_of_builds (ofLevel_typeReference h)

/-- A mark opens a group or a tuple, or starts a literal. -/
theorem ofLevel_markedType : Answers (markedType type start) (OfLevel tables .operand) := by
  refine Answers.bind fun t => ?_
  refine Answers.bind fun negative => ?_
  refine Answers.ite ofLevel_of_builds ?_
  refine Answers.ite ofLevel_of_builds ?_
  refine Answers.ite (ofLevel_tupleType h) ?_
  exact Answers.ite ofLevel_of_builds Answers.fail

/-- Any other atom is a literal, and that is not decomposed. -/
theorem ofLevel_atomType : Answers (atomType type) (OfLevel tables .operand) := by
  refine Answers.bind fun start => ?_
  refine Answers.bind fun t => ?_
  cases t.kind with
  | ident => exact ofLevel_wordType h
  | string | number | template => exact ofLevel_of_builds
  | punct => exact ofLevel_markedType h
  | regex | eof | illegal => exact Answers.fail

/-! ## Brackets, operators and separators

What is put behind or between types. -/

omit h in
/-- **Brackets behind a type make an array of it**, or something that is not decomposed. -/
theorem ofLevel_bracketed? {n : TypeExpr} (hn : n.OfLevel tables .operand) :
    Answers (bracketed? type n) (IfAny (OfLevel tables .operand)) := by
  refine Answers.bind fun bracket => ?_
  refine Answers.ite ?_ (Answers.pure .none)
  refine Answers.bind fun opening => ?_
  refine Answers.bind fun closed => ?_
  refine Answers.ite ?array ?indexed
  case array =>
    refine Answers.bind fun span => ?_
    exact Answers.pure (.some (ofLevel_array hn))
  case indexed =>
    refine Answers.bind fun index => ?_
    refine Answers.bind fun closing => ?_
    refine Answers.bind fun span => ?_
    exact Answers.pure (.some (.of_undivided ⟨rfl, rfl⟩ _))

/-- Brackets may follow brackets, so what they make is an operand again. -/
theorem ofLevel_postfixType : Answers (postfixType type) (OfLevel tables .operand) := by
  refine Answers.seq (ofLevel_atomType h) fun atom hatom => ?_
  exact Answers.iterate (fun t => ofLevel_bracketed?) hatom

/-- The result of a function reaches as far as it can. -/
theorem ofLevel_functionType : Answers (functionType type start) (OfLevel tables .any) := by
  refine Answers.bind fun generics => ?_
  refine Answers.seq (shaped_parameters h) fun params hparams => ?_
  refine Answers.bind fun arrow => ?_
  refine Answers.seq (ofLevel_returnType h) fun result hresult => ?_
  refine Answers.bind fun span => ?_
  exact Answers.pure (ofLevel_function hparams hresult.toShaped)

end

/-- **A single item is of the level that reads it**, and several are at least two. -/
theorem ofLevel_separated {separator : String} {item : Parser TypeExpr}
    {build : Span → List TypeExpr → TypeExpr} {l l' : Level}
    (h : Answers item (OfLevel tables l)) (hl : l'.excluded ⊆ l.excluded)
    (hbuild : ∀ s ns, ns.Forall (OfLevel tables l) → 2 ≤ ns.length →
      (build s ns).OfLevel tables l') :
    Answers (separated separator item build) (OfLevel tables l') := by
  refine Answers.bind fun start => ?_
  refine Answers.bind fun leading => ?_
  refine Answers.seq h fun first hfirst => ?_
  refine Answers.seq (Answers.collect (Answers.itemBehind h)) fun more hmore => ?_
  cases more with
  | nil => exact Answers.pure (hfirst.mono hl)
  | cons second more =>
    refine Answers.bind fun span => ?_
    exact Answers.pure (hbuild _ _ ((List.forall_cons _ _ _).2 ⟨hfirst, hmore⟩)
      (Nat.succ_le_succ (Nat.succ_le_succ (Nat.zero_le _))))

/-! ## Levels of the grammar

Each level takes the one below it. What comes with an operator or a condition is not
decomposed. -/

section

variable (h : Answers nested'.type (OfLevel tables .any))
include h

/-- An operand has an operator, or it is an atom with brackets. -/
theorem ofLevel_operatorType : Answers (operatorType nested') (OfLevel tables .operand) := by
  refine Answers.bind fun start => ?_
  refine Answers.bind fun t => ?_
  refine Answers.bind fun operator => ?_
  refine Answers.ite ofLevel_of_builds ?_
  refine Answers.bind fun infer => ?_
  exact Answers.ite ofLevel_of_builds (ofLevel_postfixType h)

/-- Operands are separated by one mark. -/
theorem ofLevel_intersectionType : Answers (intersectionType nested') (OfLevel tables .factor) :=
  ofLevel_separated (ofLevel_operatorType h) (by decide) fun _ _ => ofLevel_intersection

/-- Intersections are separated by another. -/
theorem ofLevel_unionType : Answers (unionType nested') (OfLevel tables .union) :=
  ofLevel_separated (ofLevel_intersectionType h) (by decide) fun _ _ => ofLevel_union

/-- A condition is a union, or it is not decomposed. -/
theorem ofLevel_conditionalType :
    Answers (conditionalType nested' start) (OfLevel tables .any) := by
  refine Answers.seq (ofLevel_unionType h) fun check hcheck => ?_
  refine Answers.bind fun bounded => ?_
  exact Answers.ite ofLevel_of_builds (Answers.pure (hcheck.mono (by decide)))

/-- A type of any form is a function, a constructor or a condition. -/
theorem ofLevel_anyType : Answers (anyType nested') (OfLevel tables .any) := by
  refine Answers.bind fun start => ?_
  refine Answers.bind fun function => ?_
  refine Answers.ite (ofLevel_functionType h) ?_
  refine Answers.bind fun construct => ?_
  exact Answers.ite ofLevel_of_builds (ofLevel_conditionalType h)

end

/-- **Every type that is read is of the level that reads it**, at whatever depth it is read. -/
theorem ofLevel_nested (tables : Tables) (k : Nat) :
    Answers (nested k).type (OfLevel tables .any) := by
  induction k with
  | zero => exact Answers.throw
  | succ k ih => exact ofLevel_anyType ih

/-- So every type that a unit contains is well formed throughout. -/
theorem ofLevel_typeExpr (tables : Tables) : Answers typeExpr (OfLevel tables .any) :=
  Answers.bind fun c => ofLevel_nested tables (c.rest.length + 1)

end Parser

end Exemplar
