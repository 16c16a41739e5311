import Exemplar.Model.Ty
import Exemplar.Text.LetterCase
import Exemplar.Text.Quoted

/-!
# Default values

A builder starts from an instance in which every field has a default value. Which value a type
calls for is decided here, by recursion on the type; how such a value is written is left to a
`ValueFactory`. Of a union or an intersection the first member decides. A type that has no
sensible value, such as `void`, has an empty text.

A text value is named after the field it stands in. Inside a function value the name is that of
the call, so that the origin of every text can be read off the sample.
-/

namespace Exemplar

/-- How default values are written. -/
structure ValueFactory where
  /-- A text, named after where it stands. -/
  string : Text → Text
  /-- A number. -/
  number : Text
  /-- A truth value. -/
  boolean : Text
  /-- A date. -/
  date : Text
  /-- A value of an enumeration with the given name and value names. -/
  enum : Text → List Text → Text
  /-- An instance of the named type. -/
  builder : Text → Text

namespace ValueFactory

/-- The receiver used when none is configured. -/
def defaultReceiver : String := "someBuilder"

/-- An instance made by the builder of a type. -/
def nestedBuilder (typeName : Text) : Text :=
  Text.ofString "new " ++ typeName ++ Text.ofString "Builder().to()"

/-- Values are requested from a sampling object. -/
def sampling (receiver : String) : ValueFactory :=
  let r := Text.ofString (if receiver.isEmpty then defaultReceiver else receiver)
  { string := fun name =>
      r ++ Text.ofString ".string(" ++ Text.ofString name.quoted ++ Text.ofString ")"
    number := r ++ Text.ofString ".number()"
    boolean := r ++ Text.ofString ".boolean()"
    date := r ++ Text.ofString ".date()"
    enum := fun name _ => r ++ Text.ofString ".enum(" ++ name ++ Text.ofString ")"
    builder := nestedBuilder }

/-- Values are fixed literals. An enumeration takes its first value; one without values is cast,
so that the field still has the right type. -/
def literal : ValueFactory :=
  { string := fun name => Text.ofString name.quoted
    number := Text.ofString "0"
    boolean := Text.ofString "false"
    date := Text.ofString "new Date(0)"
    enum := fun name values =>
      match values with
      | [] => Text.ofString "undefined as unknown as " ++ name
      | v :: _ => v
    builder := nestedBuilder }

/-- The name of the sampling factory. -/
def samplingName : String := "some"

/-- The name of the literal factory. -/
def literalName : String := "literal"

/-- The factory of a given name; the empty name is that of the sampling factory. -/
def named? (name receiver : String) : Option ValueFactory :=
  if name == samplingName || name.isEmpty then some (sampling receiver)
  else if name == literalName then some literal
  else none

end ValueFactory

mutual

/-- The default value of a type, for a field or call of the given name. -/
def Ty.sample (f : ValueFactory) (name : Text) : Ty → Text
  | .string => f.string name
  | .number => f.number
  | .boolean => f.boolean
  | .enum enumName values => f.enum enumName values
  | .builtIn typeName => if typeName == Text.ofString "Date" then f.date else f.builder typeName
  | .user typeName _ => f.builder typeName
  | .generic _ => []
  | .array element => Text.ofString "[" ++ element.sample f name ++ Text.ofString "]"
  | .tuple elements =>
    Text.ofString "[" ++ Text.join (Text.ofString ", ") (sampleAll f name elements)
      ++ Text.ofString "]"
  | .union (first :: _) => first.sample f name
  | .union [] => []
  | .intersection (first :: _) => first.sample f name
  | .intersection [] => []
  | .arrow parameters result =>
    Text.ofString "(" ++ paramListText parameters ++ Text.ofString ") => "
      ++ result.sample f
      (name ++ Text.ofString "(" ++ paramNames parameters ++ Text.ofString ")")
  | .void => []
  | .unknown => []

/-- The default values of several types. -/
def sampleAll (f : ValueFactory) (name : Text) : List Ty → List Text
  | [] => []
  | t :: rest => t.sample f name :: sampleAll f name rest

end

theorem sampleAll_eq_map (f : ValueFactory) (name : Text) (types : List Ty) :
    sampleAll f name types = types.map (·.sample f name) := by
  induction types with
  | nil => rfl
  | cons t types ih => exact congrArg (t.sample f name :: ·) ih

/-! ## Recased names -/

/-- A text with its first glyph replaced by the image of the character it is read as. -/
def mapFirst (image : Char → Char) : Text → Text
  | [] => []
  | g :: rest => .char (image g.toChar) :: rest

/-- A name with a lower-case first letter, as for a variable. -/
def lowerFirst (t : Text) : Text := mapFirst Text.lowerChar t

/-- A name with an upper-case first letter, as behind `with`. -/
def upperFirst (t : Text) : Text := mapFirst Text.upperChar t

end Exemplar
