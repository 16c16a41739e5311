import Exemplar.Data

/-!
# The type model

Annotations are mapped into a closed model of fourteen forms, and everything behind it – the
text of a generated type, the default value of a field, the dump of a declaration – is a
function on that model. What the model does not decompose is `Ty.unknown`, like an annotation
that is missing.

An enumeration carries the names of its values, resolved when the type was mapped, so that
nothing later has to look them up again.
-/

namespace Exemplar

mutual

/-- A type of the model. -/
inductive Ty where
  /-- Texts. -/
  | string
  /-- Numbers. -/
  | number
  /-- Truth values. -/
  | boolean
  /-- An enumeration with the names of its values, such as `Colour.red`. -/
  | enum (name : Text) (values : List Text)
  /-- A class known by name only. -/
  | builtIn (name : Text)
  /-- Any other named type, with its arguments. -/
  | user (name : Text) (generics : List GenericArgument)
  /-- A type in the place of a type parameter. -/
  | generic (argument : GenericArgument)
  /-- Arrays. -/
  | array (element : Ty)
  /-- Tuples. -/
  | tuple (elements : List Ty)
  /-- A union of types. -/
  | union (elements : List Ty)
  /-- An intersection of types. -/
  | intersection (elements : List Ty)
  /-- Functions. -/
  | arrow (parameters : List Param) (result : Ty)
  /-- No value. -/
  | void
  /-- A type that is missing or not decomposed. -/
  | unknown

/-- A type in the place of a type parameter, with arguments of its own. -/
inductive GenericArgument where
  /-- The type and its arguments. -/
  | mk (type : Ty) (generics : List GenericArgument)

/-- A parameter with a name and a type. -/
inductive Param where
  /-- The name and the type. -/
  | mk (name : Text) (type : Ty)

end

instance : Inhabited Ty := ⟨.unknown⟩

instance : Inhabited GenericArgument := ⟨.mk .unknown []⟩

instance : Inhabited Param := ⟨.mk [] .unknown⟩

namespace Param

/-- The name of a parameter. -/
def name : Param → Text
  | .mk name _ => name

/-- The type of a parameter. -/
def type : Param → Ty
  | .mk _ type => type

end Param

namespace Ty

/-! ## Kinds -/

/-- The forms of the model. -/
inductive Kind where
  | string
  | number
  | boolean
  | enum
  | builtIn
  | user
  | generic
  | array
  | tuple
  | union
  | intersection
  | arrow
  | void
  | unknown
deriving DecidableEq

/-- The forms in their fixed order. -/
def Kind.all : List Kind :=
  [.string, .number, .boolean, .enum, .builtIn, .user, .generic, .array, .tuple, .union,
   .intersection, .arrow, .void, .unknown]

/-- The name of a form. -/
def Kind.name : Kind → String
  | .string => "String"
  | .number => "Number"
  | .boolean => "Boolean"
  | .enum => "Enum"
  | .builtIn => "BuiltInClass"
  | .user => "UserClass"
  | .generic => "GenericArgument"
  | .array => "Array"
  | .tuple => "Tuple"
  | .union => "Union"
  | .intersection => "Intersection"
  | .arrow => "Arrow"
  | .void => "Void"
  | .unknown => "Unknown"

/-- The name shown for the number of a form, whether or not there is a form of that number. -/
def Kind.nameOfNumber (n : Nat) : String :=
  match Kind.all[n]? with
  | some k => k.name
  | none => "Invalid"

/-- The form of a type. -/
def kind : Ty → Kind
  | .string => .string
  | .number => .number
  | .boolean => .boolean
  | .enum .. => .enum
  | .builtIn _ => .builtIn
  | .user .. => .user
  | .generic _ => .generic
  | .array _ => .array
  | .tuple _ => .tuple
  | .union _ => .union
  | .intersection _ => .intersection
  | .arrow .. => .arrow
  | .void => .void
  | .unknown => .unknown

end Ty

/-! ## Types as text -/

/-- Arguments in angle brackets, or nothing when there are none. -/
def angled (arguments : List Text) : Text :=
  if arguments.isEmpty then []
  else Text.ofString "<" ++ Text.join (Text.ofString ", ") arguments ++ Text.ofString ">"

mutual

/-- The text of a type. Tuples are written without blanks, and no parentheses are ever needed for
a type that was mapped from an annotation. -/
def Ty.render : Ty → Text
  | .string => Text.ofString "string"
  | .number => Text.ofString "number"
  | .boolean => Text.ofString "boolean"
  | .enum name _ => name
  | .builtIn name => name
  | .user name generics => name ++ angled (renderArguments generics)
  | .generic argument => argument.render
  | .array element => element.render ++ Text.ofString "[]"
  | .tuple elements =>
    Text.ofString "[" ++ Text.join (Text.ofString ",") (renderAll elements) ++ Text.ofString "]"
  | .union elements => Text.join (Text.ofString " | ") (renderAll elements)
  | .intersection elements => Text.join (Text.ofString " & ") (renderAll elements)
  | .arrow parameters result =>
    Text.ofString "(" ++ Text.join (Text.ofString ", ") (renderParams parameters)
      ++ Text.ofString ") => " ++ result.render
  | .void => Text.ofString "void"
  | .unknown => Text.ofString "unknown"

/-- The text of a type argument. -/
def GenericArgument.render : GenericArgument → Text
  | .mk type generics => type.render ++ angled (renderArguments generics)

/-- The text of a parameter. -/
def Param.render : Param → Text
  | .mk name type => name ++ Text.ofString ": " ++ type.render

/-- The texts of several types. -/
def renderAll : List Ty → List Text
  | [] => []
  | t :: rest => t.render :: renderAll rest

/-- The texts of several type arguments. -/
def renderArguments : List GenericArgument → List Text
  | [] => []
  | a :: rest => a.render :: renderArguments rest

/-- The texts of several parameters. -/
def renderParams : List Param → List Text
  | [] => []
  | p :: rest => p.render :: renderParams rest

end

/-- The text of a parameter list, without its parentheses. -/
def paramListText (parameters : List Param) : Text :=
  Text.join (Text.ofString ", ") (renderParams parameters)

/-- The names of a parameter list, without its parentheses. -/
def paramNames (parameters : List Param) : Text :=
  Text.join (Text.ofString ", ") (parameters.map Param.name)

/-! ## Types as data -/

mutual

/-- A type as plain data, with its form under `kind`. -/
def Ty.describe : Ty → Data
  | .enum name values =>
    .record [("kind", .string Ty.Kind.enum.name), ("enumName", .text name),
      ("resolvedValueNames", .texts values)]
  | .builtIn name => .record [("kind", .string Ty.Kind.builtIn.name), ("typeName", .text name)]
  | .user name generics =>
    .record [("kind", .string Ty.Kind.user.name), ("name", .text name),
      ("generics", .list (describeArguments generics))]
  | .generic argument => argument.describe
  | .array element =>
    .record [("kind", .string Ty.Kind.array.name), ("elementType", element.describe)]
  | .tuple elements =>
    .record [("kind", .string Ty.Kind.tuple.name), ("elements", .list (describeTypes elements))]
  | .union elements =>
    .record [("kind", .string Ty.Kind.union.name), ("elements", .list (describeTypes elements))]
  | .intersection elements =>
    .record [("kind", .string Ty.Kind.intersection.name),
      ("elements", .list (describeTypes elements))]
  | .arrow parameters result =>
    .record [("kind", .string Ty.Kind.arrow.name),
      ("parameters", .list (describeParams parameters)), ("resultType", result.describe)]
  | .string => .record [("kind", .string Ty.Kind.string.name)]
  | .number => .record [("kind", .string Ty.Kind.number.name)]
  | .boolean => .record [("kind", .string Ty.Kind.boolean.name)]
  | .void => .record [("kind", .string Ty.Kind.void.name)]
  | .unknown => .record [("kind", .string Ty.Kind.unknown.name)]

/-- A type argument as plain data. -/
def GenericArgument.describe : GenericArgument → Data
  | .mk type generics =>
    .record [("kind", .string Ty.Kind.generic.name), ("type", type.describe),
      ("generics", .list (describeArguments generics))]

/-- A parameter as plain data. -/
def Param.describe : Param → Data
  | .mk name type => .record [("name", .text name), ("type", type.describe)]

/-- Several types as plain data. -/
def describeTypes : List Ty → List Data
  | [] => []
  | t :: rest => t.describe :: describeTypes rest

/-- Several type arguments as plain data. -/
def describeArguments : List GenericArgument → List Data
  | [] => []
  | a :: rest => a.describe :: describeArguments rest

/-- Several parameters as plain data. -/
def describeParams : List Param → List Data
  | [] => []
  | p :: rest => p.describe :: describeParams rest

end

end Exemplar
