import Exemplar.Builder.Template
import Exemplar.Builder.Values
import Exemplar.Model.Declaration

/-!
# Builders

For every interface with at least one field a builder class is generated. It holds a default
instance, has one mutator for each field, and hands the instance out with `to()`. Classes and
functions get none, and neither does an interface without fields; each of them is listed with the
reason.
-/

namespace Exemplar

/-- How builders are generated. -/
structure Generator where
  /-- How default values are written. -/
  factory : ValueFactory
  /-- The text before the first builder. -/
  header : Text

/-- A generated builder. -/
structure BuilderClass where
  /-- The interface it builds. -/
  name : Text
  /-- The number of fields of that interface. -/
  fieldCount : Nat
  /-- Its source. -/
  source : Text
deriving DecidableEq

/-- A declaration without a builder. -/
structure Skipped where
  /-- Its name. -/
  name : Text
  /-- Its kind. -/
  kind : Declaration.Kind
  /-- Why it has none. -/
  reason : String
deriving DecidableEq

/-- What was generated for the declarations of a unit. -/
structure Generated where
  /-- The text before the first builder. -/
  header : Text
  /-- The builders, in the order of the declarations. -/
  builders : List BuilderClass
  /-- The declarations without a builder, in their order. -/
  skipped : List Skipped
deriving DecidableEq

/-- The generated source: the header and all builders, or nothing when there is no builder. -/
def Generated.source (g : Generated) : Text :=
  if g.builders.isEmpty then [] else g.header ++ g.builders.flatMap (·.source)

namespace Generator

/-- The template of a builder. -/
def builderTemplate : Text := Text.ofString
  "\nexport class @\x7bclassName\x7dBuilder \x7b\n  @\x7blowerName\x7d: @\x7bclassName\x7d = \x7b\n@\x7bvaluePairs\x7d\n  \x7d\n@\x7bmethods\x7d\n  to(): @\x7bclassName\x7d \x7b\n     return this.@\x7blowerName\x7d\n  \x7d\n\x7d\n"

/-- The template of a mutator. -/
def mutatorTemplate : Text := Text.ofString
  "\n  with@\x7bupperFieldName\x7d(@\x7bfieldName\x7d: @\x7bfieldType\x7d): this \x7b\n     this.@\x7blowerClassName\x7d.@\x7bfieldName\x7d = @\x7bfieldName\x7d\n     return this\n  \x7d"

/-- The template of a field's default value. -/
def valuePairTemplate : Text := Text.ofString "    @\x7bfieldName\x7d: @\x7bvalue\x7d,"

/-- The line of a field in the default instance. -/
def valuePair (f : ValueFactory) (field : Field) : Text :=
  Template.fill valuePairTemplate
    [(Text.ofString "fieldName", field.name),
     (Text.ofString "value", field.type.sample f field.name)]

/-- The mutator of a field, in the builder of an interface whose instance has the given name. -/
def mutator (lowerName : Text) (field : Field) : Text :=
  Template.fill mutatorTemplate
    [(Text.ofString "upperFieldName", upperFirst field.name),
     (Text.ofString "fieldName", field.name),
     (Text.ofString "fieldType", field.type.render),
     (Text.ofString "lowerClassName", lowerName)]

/-- The builder of an interface. -/
def interfaceBuilder (g : Generator) (name : Text) (fields : List Field) : BuilderClass :=
  let lowerName := lowerFirst name
  let newline := Text.ofString "\n"
  { name := name
    fieldCount := fields.length
    source := Template.fill builderTemplate
      [(Text.ofString "className", name),
       (Text.ofString "lowerName", lowerName),
       (Text.ofString "valuePairs", Text.join newline (fields.map (valuePair g.factory))),
       (Text.ofString "methods", Text.join newline (fields.map (mutator lowerName)))] }

/-- The builder of a declaration, if it gets one. -/
def builder? (g : Generator) : Declaration → Option BuilderClass
  | .ofInterface name _ fields _ =>
    if fields.isEmpty then none else some (g.interfaceBuilder name fields)
  | _ => none

/-- Why a declaration gets no builder, if it gets none. -/
def skipped? : Declaration → Option Skipped
  | .ofInterface name _ fields _ =>
    if fields.isEmpty then some ⟨name, .ofInterface, "no fields"⟩ else none
  | d => some ⟨d.name, d.kind, "not an interface"⟩

/-- The builders of a list of declarations. -/
def build (g : Generator) (declarations : List Declaration) : Generated :=
  ⟨g.header, declarations.filterMap g.builder?, declarations.filterMap skipped?⟩

end Generator

end Exemplar
