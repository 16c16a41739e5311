import Exemplar.Source.Position

/-!
# Type annotations as written

The tree of a type annotation keeps every form the language has, with the span it was read from.
Only some forms are decomposed later; the others are kept apart all the same, so that what is
ignored is decided where the tree is used and not where it is read.

An annotation may be missing wherever it is optional. `TypeExpr.absent` stands for it, so that a
property without a type and a property with one are the same kind of value. A list of type
parameters or arguments is an `Option`: leaving out the angle brackets and writing an empty pair
are different things.
-/

namespace Exemplar.Tree

/-- The words that may stand before a declaration, a member or a parameter and say something
about it. -/
inductive Modifier where
  /-- `export` -/
  | exported
  /-- `default` -/
  | principal
  /-- `declare` -/
  | ambient
  /-- `abstract` -/
  | abstract
  /-- `const` -/
  | constant
  /-- `async` -/
  | asynchronous
  /-- `public` -/
  | publicAccess
  /-- `private` -/
  | privateAccess
  /-- `protected` -/
  | protectedAccess
  /-- `readonly` -/
  | readonly
  /-- `static` -/
  | static
  /-- `override` -/
  | overriding
deriving DecidableEq

/-- The modifiers in the order of their marks. -/
def Modifier.all : List (Modifier × String) :=
  [(.exported, "export"), (.principal, "default"), (.ambient, "declare"),
   (.abstract, "abstract"), (.constant, "const"), (.asynchronous, "async"),
   (.publicAccess, "public"), (.privateAccess, "private"), (.protectedAccess, "protected"),
   (.readonly, "readonly"), (.static, "static"), (.overriding, "override")]

/-- The modifier a word stands for. -/
def Modifier.ofWord? (word : Text) : Option Modifier :=
  (Modifier.all.find? (fun m => word == Text.ofString m.2)).map (·.1)

/-- The modifiers of a declaration, in the order they are written. -/
abbrev Modifiers := List Modifier

/-- Whether a modifier is among those written. -/
def Modifiers.has (ms : Modifiers) (m : Modifier) : Bool := ms.contains m

/-- A set of modifiers as one number: each modifier has the power of two of its place in
`Modifier.all`. -/
def Modifiers.mask (ms : Modifiers) : Nat :=
  Modifier.all.zipIdx.foldr
    (fun (m, i) n => if Modifiers.has ms m.1 then Nat.pow 2 i + n else n) 0

/-- A declared or referenced name. A qualified reference has its dots in the text. -/
structure Identifier where
  /-- Where it stands. -/
  span : Span
  /-- The name. -/
  text : Text
deriving DecidableEq, Inhabited

mutual

/-- A type annotation. -/
inductive TypeExpr where
  /-- No annotation. -/
  | absent
  /-- A predefined type such as `string`. -/
  | keyword (span : Span) (word : Text)
  /-- A named type with its arguments, as in `Name<A, B>`. -/
  | reference (span : Span) (name : Option Identifier) (arguments : Option (List TypeExpr))
  /-- A function type, as in `<T>(a: A) => R`. -/
  | function (span : Span) (generics : Option (List TypeParameter)) (parameters : List Parameter)
      (result : TypeExpr)
  /-- A constructor type, as in `new (a: A) => R`. -/
  | constructor (span : Span) (parameters : List Parameter) (result : TypeExpr)
  /-- A union, as in `A | B`. -/
  | union (span : Span) (types : List TypeExpr)
  /-- An intersection, as in `A & B`. -/
  | intersection (span : Span) (types : List TypeExpr)
  /-- An array, as in `T[]`. -/
  | array (span : Span) (element : TypeExpr)
  /-- A tuple, as in `[A, B]`. -/
  | tuple (span : Span) (elements : List TypeExpr)
  /-- A tuple element with a name, as in `name?: T` or `...name: T`. -/
  | namedElement (span : Span) (name : Identifier) (optional rest : Bool) (type : TypeExpr)
  /-- A tuple element that may be missing, as in `T?`. -/
  | optional (span : Span) (type : TypeExpr)
  /-- The remaining elements of a tuple, as in `...T`. -/
  | rest (span : Span) (type : TypeExpr)
  /-- A type in parentheses. -/
  | parenthesized (span : Span) (type : TypeExpr)
  /-- A string, number, boolean or template literal, as written. -/
  | literal (span : Span) (text : Text)
  /-- An object type, as in `{ a: string }`. -/
  | object (span : Span) (members : List Member)
  /-- A mapped type, as in `{ [K in keyof T]: V }`. -/
  | mapped (span : Span) (parameter : TypeParameter) (type : TypeExpr)
  /-- A conditional type, as in `C extends B ? T : F`. -/
  | conditional (span : Span) (check bound whenTrue whenFalse : TypeExpr)
  /-- A type behind `keyof`, `unique` or `readonly`. -/
  | operator (span : Span) (word : Text) (type : TypeExpr)
  /-- An indexed access, as in `T[K]`. -/
  | indexed (span : Span) (object index : TypeExpr)
  /-- The type of a value, as in `typeof name`. -/
  | query (span : Span) (name : Identifier)
  /-- A type variable bound by a conditional type, as in `infer T`. -/
  | infer (span : Span) (parameter : TypeParameter)
  /-- A predicate in the place of a result type, as in `x is T` or `asserts x`. -/
  | predicate (span : Span) (parameter : Text) (type : TypeExpr)

/-- A parameter of a function, method or constructor. -/
inductive Parameter where
  /-- A parameter with its name, unless it is a pattern, and its annotation, if it has one. -/
  | mk (span : Span) (modifiers : Modifiers) (name : Option Identifier) (rest optional : Bool)
      (type : TypeExpr)

/-- A declared type parameter, as in `T extends C = D`. -/
inductive TypeParameter where
  /-- A type parameter with its name, its bound and its default. -/
  | mk (span : Span) (name : Identifier) (bound fallback : TypeExpr)

/-- A member of an interface or an object type. -/
inductive Member where
  /-- A property, as in `name?: T`. A member whose key is a literal or computed has no name. -/
  | property (span : Span) (modifiers : Modifiers) (name : Option Identifier) (optional : Bool)
      (type : TypeExpr)
  /-- A method, as in `name<T>(a: A): R`. -/
  | method (span : Span) (name : Option Identifier) (optional : Bool)
      (generics : Option (List TypeParameter)) (parameters : List Parameter) (type : TypeExpr)
  /-- A call signature, or a construct signature behind `new`. -/
  | call (span : Span) (construct : Bool) (generics : Option (List TypeParameter))
      (parameters : List Parameter) (type : TypeExpr)
  /-- An index signature, as in `[key: K]: V`. -/
  | index (span : Span) (parameters : List Parameter) (type : TypeExpr)
  /-- An accessor, as in `get name(): T`. -/
  | accessor (span : Span) (setter : Bool) (name : Option Identifier)
      (parameters : List Parameter) (type : TypeExpr)

end

instance : Inhabited TypeExpr := ⟨.absent⟩

/-- The span an annotation was read from. -/
def TypeExpr.span : TypeExpr → Span
  | .absent => .unset
  | .keyword s _ | .reference s _ _ | .function s _ _ _ | .constructor s _ _ | .union s _
  | .intersection s _ | .array s _ | .tuple s _ | .namedElement s _ _ _ _ | .optional s _
  | .rest s _ | .parenthesized s _ | .literal s _ | .object s _ | .mapped s _ _
  | .conditional s _ _ _ _ | .operator s _ _ | .indexed s _ _ | .query s _ | .infer s _
  | .predicate s _ _ => s

/-- Whether there is no annotation. -/
def TypeExpr.isAbsent : TypeExpr → Bool
  | .absent => true
  | _ => false

/-- The name of a parameter, unless it is a pattern. -/
def Parameter.name : Parameter → Option Identifier
  | .mk _ _ name _ _ _ => name

/-- The annotation of a parameter. -/
def Parameter.type : Parameter → TypeExpr
  | .mk _ _ _ _ _ type => type

/-- The name of a type parameter. -/
def TypeParameter.name : TypeParameter → Identifier
  | .mk _ name _ _ => name

end Exemplar.Tree
