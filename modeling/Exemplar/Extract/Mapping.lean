import Exemplar.Model.Ty
import Exemplar.Model.Tables
import Exemplar.Tree.TypeExpr

/-!
# From annotations to the type model

Mapping never fails. Keywords, references, functions, unions, intersections, arrays and tuples
are decomposed; every other form, and an annotation that is missing, is `Ty.unknown`.

A reference is resolved by name: built-in and elementary classes first, then the enumerations of
the tables. What neither knows is a class of the user, and only there the arguments are kept.
-/

namespace Exemplar

open Exemplar.Tree

/-- The name that stands for one that is missing. -/
def missingName : Text := Text.ofString "unknown"

/-- The text of a name, unless it is missing or empty. -/
def identifierText (name : Option Identifier) : Text :=
  match name with
  | some i => if i.text.isEmpty then missingName else i.text
  | none => missingName

/-- The type a keyword stands for. -/
def Ty.ofKeyword (word : Text) : Ty :=
  if word == Text.ofString "string" then .string
  else if word == Text.ofString "number" then .number
  else if word == Text.ofString "boolean" then .boolean
  else if word == Text.ofString "void" then .void
  else if word == Text.ofString "symbol" then .builtIn (Text.ofString "Symbol")
  else if word == Text.ofString "object" || word == Text.ofString "any" then .user word []
  else .unknown

/-- The type a name stands for, given its mapped arguments. -/
def Ty.ofName (tables : Tables) (name : Text) (arguments : List Ty) : Ty :=
  if isBuiltIn name || tables.isElementary name then .builtIn name
  else match tables.enumValues? name with
    | some values => .enum name values
    | none => .user name (arguments.map (fun t => .mk t []))

mutual

/-- Maps an annotation into the type model. -/
def Tree.TypeExpr.toTy (tables : Tables) : TypeExpr → Ty
  | .keyword _ word => .ofKeyword word
  | .reference _ name (some arguments) =>
    .ofName tables (identifierText name) (mapTypes tables arguments)
  | .reference _ name none => .ofName tables (identifierText name) []
  | .function _ _ parameters result => .arrow (mapParams tables parameters) (result.toTy tables)
  | .union _ types => .union (mapTypes tables types)
  | .intersection _ types => .intersection (mapTypes tables types)
  | .array _ element => .array (element.toTy tables)
  | .tuple _ elements => .tuple (mapTypes tables elements)
  | _ => .unknown

/-- Maps a parameter. A pattern has no name, and a parameter without an annotation no type. -/
def Tree.Parameter.toParam (tables : Tables) : Parameter → Param
  | .mk _ _ name _ _ type => .mk (identifierText name) (type.toTy tables)

/-- Maps annotations in order, leaving out those that are missing. -/
def mapTypes (tables : Tables) : List TypeExpr → List Ty
  | [] => []
  | .absent :: rest => mapTypes tables rest
  | t :: rest => t.toTy tables :: mapTypes tables rest

/-- Maps parameters in order. -/
def mapParams (tables : Tables) : List Parameter → List Param
  | [] => []
  | p :: rest => p.toParam tables :: mapParams tables rest

end

/-- The names of declared type parameters. -/
def genericNames (generics : Option (List TypeParameter)) : List Text :=
  (generics.getD []).map (fun p => identifierText (some p.name))

end Exemplar
