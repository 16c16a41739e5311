import Exemplar.Proofs.Builder.Filling

/-!
# Which declarations get builders

Declarations are divided into those that get a builder and those that do not (`Divides`), and
both lists keep the order. The source of a builder is written here without templates, as its
parts one behind another. A builder has templates filled with texts that are filled templates
themselves, and names and values can be any text, also one that looks like a placeholder; but a
value is never looked at again, so the parts stand in the source as they are.
-/

namespace Exemplar.Generator

variable {g : Generator} {ds : List Declaration}

/-! ## Sources as parts one behind another -/

/-- The line of a field in the default instance. -/
def lineParts (f : ValueFactory) (field : Field) : List Text :=
  ["    ", field.name, ": ", field.type.sample f field.name, ","]

/-- The mutator of a field, in a builder whose instance has the given name. -/
def mutatorParts (instanceName : Text) (field : Field) : List Text :=
  ["\n  with", upperFirst field.name, "(", field.name, ": ", field.type.render,
   "): this \x7b\n     this.", instanceName, ".", field.name, " = ", field.name,
   "\n     return this\n  \x7d"]

/-- The builder of an interface. -/
def builderParts (f : ValueFactory) (name : Text) (fields : List Field) : List Text :=
  ["\nexport class ", name, "Builder \x7b\n  ", lowerFirst name, ": ", name, " = \x7b\n",
   Text.join "\n" (fields.map fun field => (lineParts f field).flatten),
   "\n  \x7d\n",
   Text.join "\n" (fields.map fun field => (mutatorParts (lowerFirst name) field).flatten),
   "\n  to(): ", name, " \x7b\n     return this.", lowerFirst name, "\n  \x7d\n\x7d\n"]

theorem valuePair_eq_flatten (f : ValueFactory) (field : Field) :
    valuePair f field = (lineParts f field).flatten := by
  rw [valuePair_eq]
  simp only [lineParts, List.flatten_cons, List.flatten_nil, List.append_nil]

theorem mutator_eq_flatten (instanceName : Text) (field : Field) :
    mutator instanceName field = (mutatorParts instanceName field).flatten := by
  rw [mutator_eq]
  simp only [mutatorParts, List.flatten_cons, List.flatten_nil, List.append_nil]

/-- **The source of a builder is its parts**, with nothing filled twice. -/
theorem interfaceBuilder_eq_flatten (g : Generator) (name : Text) (fields : List Field) :
    g.interfaceBuilder name fields =
      ⟨name, fields.length, (builderParts g.factory name fields).flatten⟩ := by
  have hsource := interfaceBuilder_source g name fields
  rw [interfaceBuilder] at hsource ⊢
  dsimp only at hsource ⊢
  rw [hsource, funext (valuePair_eq_flatten g.factory),
    funext (mutator_eq_flatten (lowerFirst name))]
  simp only [builderParts, List.flatten_cons, List.flatten_nil, List.append_nil]

/-! ## The division -/

/-- **Declarations divided** into those with a builder and those without one, in their order. -/
inductive Divides (f : ValueFactory) : List Declaration → List BuilderClass → List Skipped → Prop
  /-- No declarations. -/
  | nil : Divides f [] [] []
  /-- An interface with fields gets a builder. -/
  | builder {name : Text} {generics : List Text} {fields : List Field} {methods : List Method}
    {ds : List Declaration} {bs : List BuilderClass} {ss : List Skipped} (hfields : fields ≠ [])
    (h : Divides f ds bs ss) :
    Divides f (.ofInterface name generics fields methods :: ds)
      (⟨name, fields.length, (builderParts f name fields).flatten⟩ :: bs) ss
  /-- One without fields is skipped for that. -/
  | noFields {name : Text} {generics : List Text} {methods : List Method} {ds : List Declaration}
    {bs : List BuilderClass} {ss : List Skipped} (h : Divides f ds bs ss) :
    Divides f (.ofInterface name generics [] methods :: ds) bs
      (⟨name, .ofInterface, "no fields"⟩ :: ss)
  /-- A class is skipped, since it is no interface. -/
  | ofClass {name : Text} {generics : List Text}
      {parameters : List Param} {ds : List Declaration}
    {bs : List BuilderClass} {ss : List Skipped} (h : Divides f ds bs ss) :
    Divides f (.ofClass name generics parameters :: ds) bs
      (⟨name, .ofClass, "not an interface"⟩ :: ss)
  /-- So is a function. -/
  | ofFunction {name : Text} {parameters : List Param} {result : Ty} {ds : List Declaration}
    {bs : List BuilderClass} {ss : List Skipped} (h : Divides f ds bs ss) :
    Divides f (.ofFunction name parameters result :: ds) bs
      (⟨name, .ofFunction, "not an interface"⟩ :: ss)

/-- A division of declarations into builders and the rest. -/
theorem divides_filterMap (g : Generator) (ds : List Declaration) :
    Divides g.factory ds (ds.filterMap g.builder?) (ds.filterMap skipped?) := by
  induction ds with
  | nil => exact .nil
  | cons d ds ih =>
    cases d with
    | ofClass name generics parameters => exact .ofClass ih
    | ofInterface name generics fields methods =>
      cases fields with
      | nil => exact .noFields ih
      | cons field fields =>
        have hbuilder : g.builder? (.ofInterface name generics (field :: fields) methods) =
            some ⟨name, (field :: fields).length,
              (builderParts g.factory name (field :: fields)).flatten⟩ :=
          congrArg some (interfaceBuilder_eq_flatten g name (field :: fields))
        rw [List.filterMap_cons_some hbuilder, List.filterMap_cons_none rfl]
        exact .builder (List.cons_ne_nil _ _) ih
    | ofFunction name parameters result => exact .ofFunction ih

/-- **What is generated is the plain concatenation of its parts**, whatever names and values
contain. Exactly the interfaces with fields get builders, the rest is skipped, each with its
reason and both in order. The generated source is nothing without builders, and else the header
followed by the sources. -/
theorem build_eq_concatenation (g : Generator) (ds : List Declaration) :
    Divides g.factory ds (g.build ds).builders (g.build ds).skipped ∧
    (g.build ds).header = g.header ∧
    (g.build ds).source = if (g.build ds).builders = [] then []
      else g.header ++ ((g.build ds).builders.map BuilderClass.source).flatten := by
  refine ⟨divides_filterMap g ds, rfl, ?_⟩
  rw [Generated.source, List.flatMap_def]
  simp only [List.isEmpty_iff]
  rfl

end Exemplar.Generator
