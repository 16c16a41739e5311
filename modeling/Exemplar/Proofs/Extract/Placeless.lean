import Exemplar.Extract.Declarations
import Exemplar.Proofs.Tree.Bare

/-!
# Declarations do not know places

The tree of a unit says where everything stands, and extraction never asks. So a tree without its
places (`bare`) has the same declarations, and two trees that are the same without them have the
same declarations as each other (`SameBare.declarations_eq`).

`bare` drops two things beside places, the initial values of the members of enumerations and
their computed keys. No declaration comes from an enumeration, so nothing of it is missed.

The types are where the recursion is: a type is mapped together with the lists of types and of
parameters in it, and taking its places away goes through the same lists. Everything above types
is a list of parts, mapped one by one.
-/

namespace Exemplar

open Exemplar.Tree

variable (tables : Tables)

/-! ## Names -/

theorem identifierText_bare (name : Option Identifier) :
    identifierText (bare name) = identifierText name := by
  cases name <;> rfl

theorem genericNames_bare (generics : Option (List TypeParameter)) :
    genericNames (bare generics) = genericNames generics := by
  cases generics with
  | none => rfl
  | some ps =>
    show (ps.map bare).map _ = ps.map _
    rw [List.map_map]
    exact List.map_congr_left fun p _ => by cases p; rfl

/-! ## Types -/

/-- A type is left out of a list exactly if it is missing, and a type without its places is
missing exactly if the type is. -/
theorem mapTypes_cons (t : TypeExpr) (types : List TypeExpr) : mapTypes tables (t :: types)
    = (if t.isAbsent then [] else [t.toTy tables]) ++ mapTypes tables types := by
  cases t <;> rfl

theorem Tree.TypeExpr.isAbsent_bare (t : TypeExpr) : t.bare.isAbsent = t.isAbsent := by
  cases t <;> rfl

-- The forms that are decomposed are mapped by their parts, and any other form is unknown with
-- its places and without them.
mutual

/-- **A type is mapped to the same type without its places.** -/
theorem Tree.TypeExpr.toTy_bare : ∀ t : TypeExpr, t.bare.toTy tables = t.toTy tables
  | .keyword .. => rfl
  | .reference _ name none => congrArg (Ty.ofName tables · []) (identifierText_bare name)
  | .reference _ name (some arguments) =>
    congrArg₂ (Ty.ofName tables) (identifierText_bare name) (mapTypes_bare arguments)
  | .function _ _ parameters result =>
    congrArg₂ Ty.arrow (mapParams_bare parameters) (Tree.TypeExpr.toTy_bare result)
  | .union _ types => congrArg Ty.union (mapTypes_bare types)
  | .intersection _ types => congrArg Ty.intersection (mapTypes_bare types)
  | .array _ element => congrArg Ty.array (Tree.TypeExpr.toTy_bare element)
  | .tuple _ elements => congrArg Ty.tuple (mapTypes_bare elements)
  | .absent | .constructor .. | .namedElement .. | .optional .. | .rest .. | .parenthesized ..
  | .literal .. | .object .. | .mapped .. | .conditional .. | .operator .. | .indexed ..
  | .query .. | .infer .. | .predicate .. => rfl

theorem mapTypes_bare : ∀ types : List TypeExpr,
    mapTypes tables (bareTypes types) = mapTypes tables types
  | [] => rfl
  | t :: rest => by
    rw [bareTypes, mapTypes_cons, mapTypes_cons, TypeExpr.isAbsent_bare,
      Tree.TypeExpr.toTy_bare t, mapTypes_bare rest]

theorem mapParams_bare : ∀ parameters : List Parameter,
    mapParams tables (bareParameters parameters) = mapParams tables parameters
  | [] => rfl
  | .mk _ _ name _ _ type :: rest =>
    congrArg₂ List.cons
      (congrArg₂ Param.mk (identifierText_bare name) (Tree.TypeExpr.toTy_bare type))
      (mapParams_bare rest)

end

/-! ## Statements -/

theorem fieldsOf_bare (members : List Member) :
    fieldsOf tables (bare members) = fieldsOf tables members := by
  show (members.map Member.bare).filterMap _ = members.filterMap _
  rw [List.filterMap_map]
  refine List.filterMap_congr fun m _ => ?_
  cases m with
  | property _ _ name _ type =>
    exact congrArg some
      (congrArg₂ Field.mk (identifierText_bare name) (TypeExpr.toTy_bare tables type))
  | method | call | index | accessor => rfl

theorem methodsOf_bare (members : List Member) :
    methodsOf tables (bare members) = methodsOf tables members := by
  show (members.map Member.bare).filterMap _ = members.filterMap _
  rw [List.filterMap_map]
  refine List.filterMap_congr fun m _ => ?_
  cases m with
  | method _ name _ generics parameters type =>
    show some (Method.mk _ _ _ _) = some (Method.mk _ _ _ _)
    rw [bareGenerics_eq, genericNames_bare, identifierText_bare, mapParams_bare,
      TypeExpr.toTy_bare]
  | property | call | index | accessor => rfl

theorem Tree.ClassDecl.declarations_bare (s : Span) (ms : Modifiers) (c : ClassDecl) :
    ClassDecl.declarations tables ⟨s, ms, bare c.name, bare c.generics, bare c.base,
      bare c.interfaces, bare c.members⟩ = c.declarations tables := by
  show (c.members.map bare).filterMap _ = c.members.filterMap _
  rw [List.filterMap_map]
  refine List.filterMap_congr fun m _ => ?_
  cases m with
  | constructor _ _ parameters =>
    show some (Declaration.ofClass _ _ _) = some (Declaration.ofClass _ _ _)
    rw [identifierText_bare, genericNames_bare, ← bareParameters_eq, mapParams_bare]
  | property | method | other => rfl

/-- Only the first variable counts, and of its value only the parameters. -/
theorem Tree.VariableDecl.declaration?_bare (s : Span) (ms : Modifiers) (v : VariableDecl) :
    VariableDecl.declaration? tables ⟨s, ms, v.keyword, bare v.declarators⟩
      = v.declaration? tables := by
  obtain ⟨_, _, _, _ | ⟨⟨_, name, _, _ | value⟩, _⟩⟩ := v
  · rfl
  · rfl
  · cases value with
    | arrow _ _ _ parameters _ | function _ _ _ _ parameters _ =>
      show some (Declaration.ofFunction (identifierText (bare name)) _ _) = some _
      rw [identifierText_bare, ← bareParameters_eq, mapParams_bare]
    | other => rfl

/-- **A statement has the same declarations without its places.** -/
theorem Tree.Statement.declarations_bare : ∀ s : Statement,
    (bare s).declarations tables = s.declarations tables
  | .interfaceDecl d => by
    show [Declaration.ofInterface _ _ _ _] = [Declaration.ofInterface _ _ _ _]
    rw [genericNames_bare, fieldsOf_bare, methodsOf_bare]
    rfl
  | .classDecl d => by
    show (if _ then _ else _) = (if _ then _ else _)
    rw [ClassDecl.declarations_bare]
  | .variables v => by
    show (if _ then _ else _) = (if _ then _ else _)
    rw [VariableDecl.declaration?_bare]
  | .enumDecl _ | .functionDecl _ | .typeAlias _ | .other .. => rfl

/-- Statements that are the same without their places have the same declarations. -/
theorem SameBare.declarations_eq {s s' : Statement} (h : SameBare s s') :
    s.declarations tables = s'.declarations tables :=
  h.congr (Statement.declarations_bare tables)

end Exemplar
