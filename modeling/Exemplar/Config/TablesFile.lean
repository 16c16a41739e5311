import Exemplar.Disk.Access
import Exemplar.Failure
import Exemplar.Model.Tables
import Exemplar.Text.Digits
import Exemplar.Text.LetterCase
import Exemplar.Toml.Document
import Exemplar.Toml.Writer

/-!
# Tables files

Resolution tables can come in a file of their own, with a list of elementary names and a table
of enumerations. The two names may be written in either case. Anything else in the file is a
mistake, most likely a misspelt name, and is reported with its key rather than passed over.
-/

namespace Exemplar.TablesFile

/-- The name of the list of elementary names. -/
def elementaryName : String := "elementary"

/-- The name of the table of enumerations. -/
def enumsName : String := "enums"

/-- Whether a name is a given one, written in either case. -/
def isNamed (expected name : String) : Bool := Text.lowerString name == expected

/-- A list of strings. -/
def strings? : Data → Option (List Text)
  | .list items => items.mapM (fun d =>
      match d with
      | .text t => some t
      | _ => none)
  | _ => none

/-- A table of lists of strings. -/
def lists? : Data → Option (List (Text × List Text))
  | .record entries => entries.mapM (fun e => (strings? e.2).map (Text.ofString e.1, ·))
  | _ => none

/-- The tables that entries say, if what they say has the right form. -/
def tables? : List (String × Data) → Option Tables
  | [] => some .empty
  | (name, d) :: rest => do
    let more ← tables? rest
    if isNamed elementaryName name then
      return ⟨(← strings? d) ++ more.elementary, more.enums⟩
    else if isNamed enumsName name then
      return ⟨more.elementary, (← lists? d) ++ more.enums⟩
    else return more

/-- Whether a key means something. -/
def isKnown : List String → Bool
  | [name] => isNamed elementaryName name || isNamed enumsName name
  | [name, _] => isNamed enumsName name
  | _ => false

/-- A name of a key, in quotes if it needs them. -/
def nameText (name : String) : String :=
  if !name.isEmpty && name.toList.all Toml.isBare then name
  else "\"" ++ String.ofList (name.toList.flatMap (Toml.escapeChar (Text.hexDigits 2))) ++ "\""

/-- A key. -/
def keyText (key : List String) : String := ".".intercalate (key.map nameText)

/-- The keys in statements that mean nothing, in their order. -/
def unknownKeys (statements : List Toml.Statement) : List String :=
  ((Toml.mentions [] statements).filter (fun key => !isKnown key)).map keyText

/-- The tables that statements say, if they are a document of the right form. -/
def ofStatements? (statements : List Toml.Statement) : Option Tables :=
  match Toml.assemble? statements with
  | some (.record entries) => tables? entries
  | _ => none

/-- Reads a tables file. -/
def read (d : Disk) (cwd path : String) : Except Failure Tables :=
  match d.read cwd path with
  | .error _ => .error (.unreadableTables path)
  | .ok content =>
    match Toml.parseText? Toml.lenient content with
    | none => .error (.unreadableTables path)
    | some statements =>
      match ofStatements? statements with
      | none => .error (.unreadableTables path)
      | some tables =>
        let unknown := unknownKeys statements
        if unknown.isEmpty then .ok tables else .error (.unknownTableKeys path unknown)

end Exemplar.TablesFile
