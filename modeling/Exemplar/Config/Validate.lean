import Exemplar.Config.Basic
import Exemplar.Version.Constraint

/-!
# Valid configurations

A configuration is checked in a fixed order, and the first thing wrong with it is reported: the
value factory, the number of units at once, the suffix, the enumerations from first to last, the
elementary names, and last the required version.
-/

namespace Exemplar.Config

/-- What is wrong with the enumerations from position `index` on, where `seen` were before. -/
def checkEnums (seen : List String) (index : Nat) : List EnumConfig → Except Failure Unit
  | [] => .ok ()
  | e :: rest =>
    if e.name.isEmpty then .error (.unnamedEnum index)
    else if seen.contains e.name then .error (.repeatedEnum e.name)
    else checkEnums (e.name :: seen) (index + 1) rest

/-- Whether files with a suffix are sources. -/
def namesSource (suffix : String) : Bool := ['.', 't', 's'].isSuffixOf suffix.toList

/-- Checks a configuration for a program of the given version. -/
def validate (c : Config) (version : String) : Except Failure Unit := do
  let _ ← ValueFactory.find c.generate.factory c.generate.builderName
  if c.generate.parallelism < 0 then throw (.negativeParallelism c.generate.parallelism)
  if !namesSource c.generate.suffix then throw (.wrongSuffix c.generate.suffix)
  checkEnums [] 0 c.enumList
  if c.elementaryList.contains "" then throw .unnamedElementary
  Version.require c.requires version

end Exemplar.Config
