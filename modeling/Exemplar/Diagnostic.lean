import Exemplar.Grammar.Statements
import Exemplar.Terminal

/-!
# Messages about a source

When a source cannot be read, the reason is told as a `Report`: what is wrong, in which file and
at which place, and which token was found there. A report has two forms. The plain form is one
line, with the place in front and suggestions in parentheses behind; the terminal form spreads
the same facts over coloured lines.

A `Diagnostic` is the report of a source that was really read, and keeps the span it points at.
-/

namespace Exemplar

/-- A message about a source, ready to be shown. -/
structure Report where
  /-- The kind of message. -/
  kind : String
  /-- What is wrong. -/
  message : String
  /-- The file, empty when it has no name. -/
  file : String
  /-- The token found, empty when there is none to show. -/
  found : String
  /-- The line and the character of the place, the character counted from zero. -/
  place : Option (Int × Int)
  /-- What could be done about it. -/
  suggestions : List String

namespace Report

/-- The place as it is shown, with the character counted from one. -/
def placeText (place : Int × Int) : String := s!"{place.1}:{place.2 + 1}"

/-- The file and the place, as far as they are known. -/
def location (r : Report) : String :=
  ":".intercalate
    ((if r.file.isEmpty then [] else [r.file]) ++ r.place.toList.map placeText)

/-- The report on one line. -/
def plain (r : Report) : String :=
  let place := if r.location.isEmpty then "" else r.location ++ ": "
  let found := if r.found.isEmpty then "" else ", found " ++ r.found
  let advice := if r.suggestions.isEmpty then ""
    else " (" ++ "; ".intercalate r.suggestions ++ ")"
  place ++ r.message ++ found ++ advice

/-- A line of the report's context: a coloured label and a value. -/
def contextLine (label value : String) : String :=
  "\n  " ++ Terminal.paint .yellow label ++ " " ++ value

/-- The report on several coloured lines. -/
def terminal (r : Report) : String :=
  Terminal.paint .red r.message
    ++ "\n\n" ++ Terminal.paint .lightCyan "Context:"
    ++ (if r.location.isEmpty then "" else contextLine "At:" r.location)
    ++ (if r.found.isEmpty then "" else contextLine "Found:" r.found)
    ++ contextLine "Kind:" r.kind
    ++ (if r.suggestions.isEmpty then ""
        else "\n\n" ++ Terminal.paint .green "Suggestions:"
          ++ String.join (r.suggestions.map ("\n  • " ++ ·)))

end Report

/-- Whether a source breaks in its tokens or in their order. -/
inductive Diagnostic.Kind where
  /-- A token does not end. -/
  | lexical
  /-- A token stands where the grammar does not accept it. -/
  | grammatical
deriving DecidableEq

/-- The name of a kind of message. -/
def Diagnostic.Kind.name : Diagnostic.Kind → String
  | .lexical => "lexical"
  | .grammatical => "syntax"

/-- Why a source could not be read. -/
structure Diagnostic where
  /-- Where it breaks. -/
  kind : Diagnostic.Kind
  /-- What is wrong. -/
  message : String
  /-- The file, empty when it has no name. -/
  file : String
  /-- The token found, empty when there is none to show. -/
  found : String
  /-- The span the message points at. -/
  range : Option Span
deriving DecidableEq

namespace Diagnostic

/-- A diagnostic as a report. -/
def report (d : Diagnostic) : Report :=
  { kind := d.kind.name, message := d.message, file := d.file, found := d.found,
    place := d.range.map (fun r => (r.start.line, r.start.character)), suggestions := [] }

/-- The diagnostic on one line. -/
def plain (d : Diagnostic) : String := d.report.plain

end Diagnostic

/-- The diagnostic of a stopped parser, for a file. There is none for a source on which the
parser itself breaks down. -/
def Halt.diagnostic? (file : String) : Halt → Option Diagnostic
  | .lexical fault range => some ⟨.lexical, fault.message, file, "", range⟩
  | .unexpected complaint found =>
    some ⟨.grammatical, complaint.message, file, found.describe, some found.span⟩
  | .crash _ | .exhausted => none

/-- The diagnostic of a source whose tokens break off. -/
def TokenStream.diagnostic? (s : TokenStream) : Option Diagnostic :=
  s.ending.fault.map (fun fault => ⟨.lexical, fault.message, "", "", s.ending.range?⟩)

end Exemplar
