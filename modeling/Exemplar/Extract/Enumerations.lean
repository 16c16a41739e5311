import Exemplar.Model.Tables
import Exemplar.Text.Identifier
import Exemplar.Tree.Statement

/-!
# The enumerations of a unit

The enumerations a unit declares are added to the tables its types are resolved with. A member
that is written as an identifier, or as a quoted string whose content is one, is reached with a
point; every other member is reached with its key in brackets.
-/

namespace Exemplar

open Exemplar.Tree

/-- Whether a text between quotes of one kind is written with its quotes. -/
def isQuoted (t : Text) : Bool :=
  match t with
  | q :: c :: rest =>
    (q.is '\'' || q.is '"') && ((c :: rest).getLast?.any (fun l => l.is q.toChar))
  | _ => false

/-- The text between the first and the last glyph. -/
def unquoted (t : Text) : Text := t.tail.dropLast

/-- Whether every glyph of a text may stand in an identifier behind its first. -/
def allContinue (t : Text) : Bool :=
  t.all (fun g => g.is '$' || g.is '_' || (!g.is Glyph.replacement
    && Text.Identifier.isLetterOrMark g.toChar))

/-- Whether a text is an identifier, written without escapes. -/
def isIdentifierName : Text → Bool
  | [] => false
  | g :: rest =>
    (g.is '$' || g.is '_' || (!g.is Glyph.replacement && Text.Identifier.isLetter g.toChar))
      && allContinue rest

/-- The expression that reaches a member of an enumeration. -/
def memberAccess (enum member : Text) : Text :=
  let key := if isQuoted member then unquoted member else member
  if isIdentifierName key then enum ++ Text.ofString "." ++ key
  else if (Text.ofString "[").isPrefixOf member then enum ++ member
  else enum ++ Text.ofString "[" ++ member ++ Text.ofString "]"

/-- An enumeration with the expressions that reach its members. -/
def Tree.EnumDecl.entry (d : EnumDecl) : Text × List Text :=
  (d.name.text, d.members.map (fun m => memberAccess d.name.text m.name))

/-- The enumerations a unit declares, in the order of its statements. -/
def Tree.SourceUnit.enums (u : SourceUnit) : List (Text × List Text) :=
  u.statements.filterMap (fun s =>
    match s with
    | .enumDecl d => some d.entry
    | _ => none)

/-- The tables a unit's types are resolved with: those given, and behind them the enumerations
the unit declares. Of two declarations with one name the last counts. -/
def Tree.SourceUnit.tables (u : SourceUnit) (given : Tables) : Tables :=
  given.merge (.ofLastEntries [] u.enums)

end Exemplar
