import Exemplar.Model.Ty

/-!
# Declarations

What is extracted from a unit: one entry for every constructor of an exported class, one for
every interface, and one for every exported variable that holds a function. Only interfaces get
builders; the others are kept so that a dump can show them and a run can say why they were
passed over.
-/

namespace Exemplar

/-- A property of an interface. -/
structure Field where
  /-- Its name. -/
  name : Text
  /-- Its type. -/
  type : Ty

/-- A method of an interface. -/
structure Method where
  /-- Its name. -/
  name : Text
  /-- The names of its type parameters. -/
  generics : List Text
  /-- Its parameters. -/
  parameters : List Param
  /-- Its result. -/
  result : Ty

/-- An extracted declaration. -/
inductive Declaration where
  /-- A class, by one of its constructors. -/
  | ofClass (name : Text) (generics : List Text) (parameters : List Param)
  /-- An interface. -/
  | ofInterface (name : Text) (generics : List Text) (fields : List Field)
      (methods : List Method)
  /-- A function held by a variable. -/
  | ofFunction (name : Text) (parameters : List Param) (result : Ty)

namespace Declaration

/-- The kinds of declaration. -/
inductive Kind where
  | ofClass
  | ofInterface
  | ofFunction
deriving DecidableEq

/-- The kinds in their fixed order. -/
def Kind.all : List Kind := [.ofClass, .ofInterface, .ofFunction]

/-- The name of a kind. -/
def Kind.name : Kind → String
  | .ofClass => "ClassType"
  | .ofInterface => "InterfaceType"
  | .ofFunction => "FunctionType"

/-- The name shown for the number of a kind, whether or not there is a kind of that number. -/
def Kind.nameOfNumber (n : Int) : String :=
  if n < 0 then "Invalid"
  else match Kind.all[n.toNat]? with
    | some k => k.name
    | none => "Invalid"

/-- The kind of a declaration. -/
def kind : Declaration → Kind
  | .ofClass .. => .ofClass
  | .ofInterface .. => .ofInterface
  | .ofFunction .. => .ofFunction

/-- The name of a declaration. -/
def name : Declaration → Text
  | .ofClass name _ _ => name
  | .ofInterface name _ _ _ => name
  | .ofFunction name _ _ => name

/-- Type parameters as plain data. -/
def describeGenerics (names : List Text) : Data :=
  .list (names.map (fun n => .record [("name", .text n)]))

/-- A property as plain data. -/
def describeField (f : Field) : Data :=
  .record [("name", .text f.name), ("resultType", f.type.describe)]

/-- A method as plain data. -/
def describeMethod (m : Method) : Data :=
  .record [("name", .text m.name), ("genericParameters", describeGenerics m.generics),
    ("parameters", .list (describeParams m.parameters)), ("resultType", m.result.describe)]

/-- A declaration as plain data, with its kind under `type`. -/
def describe : Declaration → Data
  | .ofClass name generics parameters =>
    .record [("type", .string Kind.ofClass.name), ("name", .text name),
      ("genericParameters", describeGenerics generics),
      ("parameters", .list (describeParams parameters))]
  | .ofInterface name generics fields methods =>
    .record [("type", .string Kind.ofInterface.name), ("name", .text name),
      ("genericParameters", describeGenerics generics),
      ("fields", .list (fields.map describeField)),
      ("methods", .list (methods.map describeMethod))]
  | .ofFunction name parameters result =>
    .record [("type", .string Kind.ofFunction.name), ("name", .text name),
      ("parameters", .list (describeParams parameters)), ("resultType", result.describe)]

end Declaration

end Exemplar
