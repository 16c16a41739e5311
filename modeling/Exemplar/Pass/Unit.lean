import Exemplar.Builder.Generator
import Exemplar.Disk.Access
import Exemplar.Extract.Declarations
import Exemplar.Extract.Enumerations
import Exemplar.Failure
import Exemplar.Log.Entry
import Exemplar.Pass.Output

/-!
# A pass over units

A pass reads a unit, extracts its declarations and generates their builders. Units are
independent of each other, so a run over several is the list of their passes: it succeeds if all
of them do, and otherwise fails as the first that does. Nothing is written by a pass.
-/

namespace Exemplar.Pass

/-- How units are processed. -/
structure Options where
  /-- The configured resolution tables. Enumerations of a unit are added for that unit, and the
  configured ones win. -/
  tables : Tables
  /-- How builders are generated. -/
  generator : Generator
  /-- The directory generated files go to; empty for none. -/
  outputDir : String
  /-- The suffix of generated files; empty for the usual one. -/
  suffix : String
  /-- The number of units processed at once; zero or less for as many as there are processors. No
  result depends on it. -/
  parallelism : Int

/-- What a pass over a unit yields. -/
structure UnitResult where
  /-- The path of the unit. -/
  unit : String
  /-- Its declarations. -/
  declarations : List Declaration
  /-- Their builders. -/
  generated : Generated
  /-- The file the builders belong in; empty without an output directory. -/
  output : String

namespace UnitResult

/-- The generated source. -/
def source (r : UnitResult) : Text := r.generated.source

/-- What is said about a pass: each builder, each declaration without one, and totals. -/
def entries (r : UnitResult) : List Log.Entry :=
  r.generated.builders.map (fun b =>
      ⟨.debug, "builder", "Builder generated",
        [.text "declaration" b.name.toString, .count "count" b.fieldCount]⟩)
    ++ r.generated.skipped.map (fun s =>
      ⟨.debug, "builder", "No builder generated",
        [.text "declaration" s.name.toString, .text "kind" s.kind.name,
          .text "reason" s.reason]⟩)
    ++ [⟨.debug, "builder", "Builders generated",
          [.count "count" r.generated.builders.length, .count "duration_ms" 0]⟩,
        ⟨.info, "pipeline", "Unit processed",
          Log.Logger.about r.unit ""
            ++ [.count "count" r.declarations.length,
                .count "builders" r.generated.builders.length, .count "duration_ms" 0]⟩]

end UnitResult

/-- Reads the unit at a path. -/
def loadUnit (d : Disk) (cwd path : String) : Except Failure Tree.SourceUnit :=
  match d.read cwd path with
  | .error reason => .error (.unreadableUnit path reason)
  | .ok content => Tree.SourceUnit.read path content

/-- The file the builders of a unit belong in, if there is an output directory. -/
def Options.output (o : Options) (unit : String) : String :=
  if o.outputDir.isEmpty then "" else outputPath unit o.outputDir o.suffix

/-- One pass over the unit at a path. -/
def processUnit (d : Disk) (cwd : String) (o : Options) (cancelled : Bool) (path : String) :
    Except Failure UnitResult :=
  if cancelled then .error .canceled
  else match loadUnit d cwd path with
    | .error f => .error f
    | .ok unit =>
      let declarations := unit.declarations (unit.tables o.tables)
      .ok ⟨path, declarations, o.generator.build declarations, o.output path⟩

/-- The first unit, among those that follow units with known outputs, that would write the file
of another unit: the other unit, the unit and the file. -/
def collisionAfter (output : String → String) (seen : List (String × String)) :
    List String → Option (String × String × String)
  | [] => none
  | unit :: rest =>
    match seen.lookup (output unit) with
    | some other =>
      if other == unit then collisionAfter output seen rest else some (other, unit, output unit)
    | none => collisionAfter output ((output unit, unit) :: seen) rest

/-- Whether two units of a list would write the same file. -/
def Options.checkCollisions (o : Options) (units : List String) : Except Failure Unit :=
  if o.outputDir.isEmpty then .ok ()
  else match collisionAfter (fun u => outputPath u o.outputDir o.suffix) [] units with
    | none => .ok ()
    | some (first, second, output) => .error (.collision first second output)

/-- The passes over units, in their order, up to the first that fails. -/
def passes (d : Disk) (cwd : String) (o : Options) (cancelled : Bool) (units : List String) :
    Except Failure (List UnitResult) :=
  units.mapM (processUnit d cwd o cancelled)

/-- Processes units, unless two of them would write the same file. -/
def processUnits (d : Disk) (cwd : String) (o : Options)
    (cancelled : Bool) (units : List String) :
    Except Failure (List UnitResult) := do
  o.checkCollisions units
  passes d cwd o cancelled units

/-- What is said while units are processed: the entries of the passes that succeed before the
first that fails, and a total if none does. -/
def entriesOf (d : Disk) (cwd : String) (o : Options) (cancelled : Bool) (units : List String) :
    List Log.Entry :=
  match o.checkCollisions units with
  | .error _ => []
  | .ok () => go units
where
  /-- The entries of the passes over the remaining units. -/
  go : List String → List Log.Entry
    | [] =>
      [⟨.debug, "pipeline", "Units processed", [.count "total_count" units.length]⟩]
    | unit :: rest =>
      match processUnit d cwd o cancelled unit with
      | .ok r => r.entries ++ go rest
      | .error _ => []

end Exemplar.Pass
