import Exemplar.Tree.TypeExpr

/-!
# Units and their statements

A unit is a list of top-level statements. Declarations that can matter to a builder have a
structure each; every other statement is kept by its span and first word only. Of a function
literal the signature is kept and the body is not, and of any other expression nothing but the
span.
-/

namespace Exemplar.Tree

/-- An initial value of a variable. -/
inductive Expression where
  /-- A function literal with an arrow, as in `async <T>(a: A): R => body`. -/
  | arrow (span : Span) (modifiers : Modifiers) (generics : Option (List TypeParameter))
      (parameters : List Parameter) (type : TypeExpr)
  /-- A function literal with the word `function`. -/
  | function (span : Span) (modifiers : Modifiers) (name : Option Identifier)
      (generics : Option (List TypeParameter)) (parameters : List Parameter) (type : TypeExpr)
  /-- Any other expression. -/
  | other (span : Span)

/-- Whether an expression is a function literal. -/
def Expression.isFunction : Expression → Bool
  | .arrow .. | .function .. => true
  | .other _ => false

/-- One variable of a variable statement. -/
structure Declarator where
  /-- Where it stands. -/
  span : Span
  /-- Its name, unless it is a pattern. -/
  name : Option Identifier
  /-- Its annotation. -/
  type : TypeExpr
  /-- Its initial value, if one is written. -/
  initializer : Option Expression

/-- Whether a variable starts out as a function literal. -/
def Declarator.isFunction (d : Declarator) : Bool :=
  d.initializer.any Expression.isFunction

/-- A member of an enumeration. -/
structure EnumMember where
  /-- Where it stands. -/
  span : Span
  /-- Its key as written: a word, a literal, or a computed key with its brackets. -/
  name : Text
  /-- The text of its initial value, empty when there is none. -/
  initializer : Text
deriving DecidableEq

/-- A member of a class. -/
inductive ClassMember where
  /-- A constructor. -/
  | constructor (span : Span) (modifiers : Modifiers) (parameters : List Parameter)
  /-- A property, as in `name: T = value`. -/
  | property (span : Span) (modifiers : Modifiers) (name : Option Identifier) (type : TypeExpr)
  /-- A method or accessor. -/
  | method (span : Span) (modifiers : Modifiers) (name : Option Identifier)
      (generics : Option (List TypeParameter)) (parameters : List Parameter) (type : TypeExpr)
  /-- An index signature or a static block. -/
  | other (span : Span)

/-- An interface, as in `interface Name<T> extends A, B { … }`. -/
structure InterfaceDecl where
  /-- Where it stands. -/
  span : Span
  /-- What is written before it. -/
  modifiers : Modifiers
  /-- Its name. -/
  name : Identifier
  /-- Its type parameters. -/
  generics : Option (List TypeParameter)
  /-- The interfaces it extends. -/
  bases : List TypeExpr
  /-- Its members. -/
  members : List Member

/-- A class, as in `class Name<T> extends A implements B { … }`. -/
structure ClassDecl where
  /-- Where it stands. -/
  span : Span
  /-- What is written before it. -/
  modifiers : Modifiers
  /-- Its name, if it has one. -/
  name : Option Identifier
  /-- Its type parameters. -/
  generics : Option (List TypeParameter)
  /-- The class it extends, when that is a plain reference. -/
  base : TypeExpr
  /-- The interfaces it implements. -/
  interfaces : List TypeExpr
  /-- Its members. -/
  members : List ClassMember

/-- A variable statement, as in `const a = …, b = …;`. -/
structure VariableDecl where
  /-- Where it stands. -/
  span : Span
  /-- What is written before it. -/
  modifiers : Modifiers
  /-- The word that introduces it. -/
  keyword : Text
  /-- Its variables. -/
  declarators : List Declarator

/-- An enumeration, as in `enum Name { a = 'a', b }`. -/
structure EnumDecl where
  /-- Where it stands. -/
  span : Span
  /-- What is written before it. -/
  modifiers : Modifiers
  /-- Its name. -/
  name : Identifier
  /-- Its members. -/
  members : List EnumMember
deriving DecidableEq

/-- A function declaration, as in `function name<T>(a: A): R { … }`. -/
structure FunctionDecl where
  /-- Where it stands. -/
  span : Span
  /-- What is written before it. -/
  modifiers : Modifiers
  /-- Its name, if it has one. -/
  name : Option Identifier
  /-- Its type parameters. -/
  generics : Option (List TypeParameter)
  /-- Its parameters. -/
  parameters : List Parameter
  /-- Its result type. -/
  type : TypeExpr

/-- A type alias, as in `type Name<T> = T;`. -/
structure AliasDecl where
  /-- Where it stands. -/
  span : Span
  /-- What is written before it. -/
  modifiers : Modifiers
  /-- Its name. -/
  name : Identifier
  /-- Its type parameters. -/
  generics : Option (List TypeParameter)
  /-- The type it stands for. -/
  type : TypeExpr

/-- A top-level statement. -/
inductive Statement where
  /-- An interface. -/
  | interfaceDecl (decl : InterfaceDecl)
  /-- A class. -/
  | classDecl (decl : ClassDecl)
  /-- A variable statement. -/
  | variables (decl : VariableDecl)
  /-- An enumeration. -/
  | enumDecl (decl : EnumDecl)
  /-- A function declaration. -/
  | functionDecl (decl : FunctionDecl)
  /-- A type alias. -/
  | typeAlias (decl : AliasDecl)
  /-- Any other statement, with its first word. -/
  | other (span : Span) (keyword : Text)

/-- A unit: one source file. -/
structure SourceUnit where
  /-- The span of its tokens. -/
  span : Span
  /-- The name messages call it by. -/
  name : String
  /-- Its statements. -/
  statements : List Statement

end Exemplar.Tree
