import Exemplar.Extract.Mapping
import Exemplar.Model.Declaration
import Exemplar.Tree.Statement

/-!
# The declarations of a unit

Which statements of a unit are of interest, and what is kept of them. An exported class counts
once for every constructor it declares; an interface always counts; an exported variable
statement counts if its first variable holds a function literal. The result of such a function
is not inferred.
-/

namespace Exemplar

open Exemplar.Tree

/-- The declarations of a class: one for each of its constructors. -/
def Tree.ClassDecl.declarations (tables : Tables) (c : ClassDecl) : List Declaration :=
  c.members.filterMap (fun m =>
    match m with
    | .constructor _ _ parameters =>
      some (.ofClass (identifierText c.name) (genericNames c.generics)
        (mapParams tables parameters))
    | _ => none)

/-- The properties among the members of an interface. -/
def fieldsOf (tables : Tables) (members : List Member) : List Field :=
  members.filterMap (fun m =>
    match m with
    | .property _ _ name _ type => some ⟨identifierText name, type.toTy tables⟩
    | _ => none)

/-- The methods among the members of an interface. -/
def methodsOf (tables : Tables) (members : List Member) : List Method :=
  members.filterMap (fun m =>
    match m with
    | .method _ name _ generics parameters type =>
      some ⟨identifierText name, genericNames generics, mapParams tables parameters,
        type.toTy tables⟩
    | _ => none)

/-- The declaration of an interface. -/
def Tree.InterfaceDecl.declaration (tables : Tables) (i : InterfaceDecl) : Declaration :=
  .ofInterface (identifierText (some i.name)) (genericNames i.generics)
    (fieldsOf tables i.members) (methodsOf tables i.members)

/-- The parameters of a function literal. -/
def Tree.Expression.functionParameters? : Expression → Option (List Parameter)
  | .arrow _ _ _ parameters _ => some parameters
  | .function _ _ _ _ parameters _ => some parameters
  | .other _ => none

/-- The declaration of a variable statement whose first variable holds a function literal. -/
def Tree.VariableDecl.declaration? (tables : Tables) (v : VariableDecl) : Option Declaration :=
  do
  let first ← v.declarators.head?
  let value ← first.initializer
  let parameters ← value.functionParameters?
  return .ofFunction (identifierText first.name) (mapParams tables parameters) .unknown

/-- The declarations of a statement. -/
def Tree.Statement.declarations (tables : Tables) : Statement → List Declaration
  | .classDecl c => if Modifiers.has c.modifiers .exported then c.declarations tables else []
  | .interfaceDecl i => [i.declaration tables]
  | .variables v =>
    if Modifiers.has v.modifiers .exported then (v.declaration? tables).toList else []
  | _ => []

/-- The declarations of a unit, in the order of its statements. -/
def Tree.SourceUnit.declarations (tables : Tables) (u : SourceUnit) : List Declaration :=
  u.statements.flatMap (Statement.declarations tables)

end Exemplar
