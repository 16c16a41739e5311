import Exemplar.Decimal.Shortest
import Exemplar.Log.Verbosity

/-!
# Log entries

An entry has a level, a message and named values. What a value is decides how it is written, and
which values a logger can carry along to all of its entries.
-/

namespace Exemplar.Log

/-- A value attached to an entry. -/
inductive Value where
  /-- A text. -/
  | text (s : String)
  /-- A whole number of the usual width. -/
  | int (n : Int)
  /-- A whole number of some smaller width. -/
  | smallInt (n : Int)
  /-- A whole number without a sign, of 64 bits. -/
  | natural (n : UInt64)
  /-- A truth value. -/
  | bool (b : Bool)
  /-- A floating-point number of 64 bits. -/
  | float (bits : UInt64)
  /-- A floating-point number of 32 bits. -/
  | smallFloat (bits : UInt32)
  /-- A list of texts. -/
  | texts (l : List String)
  /-- A failure, by its message. -/
  | failure (message : String)
  /-- A duration in milliseconds. -/
  | duration (ms : Int)
  /-- Nothing. -/
  | nothing
  /-- A failure that did not happen: it leaves no trace. -/
  | absent

/-- A named value. -/
structure Field where
  /-- Its name. -/
  key : String
  /-- Its value. -/
  value : Value

namespace Field

/-- A named text. -/
def text (key value : String) : Field := ⟨key, .text value⟩

/-- A named count. -/
def count (key : String) (n : Nat) : Field := ⟨key, .int n⟩

/-- Whether a field leaves a trace. -/
def isPresent (f : Field) : Bool :=
  match f.value with
  | .absent => false
  | _ => true

end Field

/-- Something to be said. -/
structure Entry where
  /-- Its weight. -/
  level : Level
  /-- The component that says it, if it has a name. -/
  component : String
  /-- What is said. -/
  message : String
  /-- What goes with it. -/
  fields : List Field

/-- A source of entries: a component with values that go with everything it says. -/
structure Logger where
  /-- The name of the component. -/
  component : String
  /-- The values that go with every entry. -/
  context : List Field

namespace Logger

/-- The fields for the unit and the component a logger speaks about, as far as they are known. -/
def about (unit component : String) : List Field :=
  (if unit.isEmpty then [] else [Field.text "unit" unit])
    ++ (if component.isEmpty then [] else [Field.text "component" component])

end Logger

end Exemplar.Log
