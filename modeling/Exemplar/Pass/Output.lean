import Exemplar.Path

/-!
# Where builders go

The builders of a unit go into one file of the output directory. Its name is the last name of
the unit's path, without the ending that marks it as a source, and with the suffix of generated
files. Two units whose names agree up to that ending would therefore write the same file.
-/

namespace Exemplar.Pass

/-- The suffix of generated files when none is asked for. -/
def defaultSuffix : String := ".builder.ts"

/-- The endings that mark a source, in the order in which they are tried: the longer one first
where one ends with another. -/
def sourceEndings : List (List Char) :=
  [['.', 'd', '.', 't', 's'], ['.', 't', 's', 'x'], ['.', 't', 's']]

/-- A name without an ending, if it has that ending. -/
def withoutEnding? (ending name : List Char) : Option (List Char) :=
  if ending.isSuffixOf name then some (name.take (name.length - ending.length)) else none

/-- A name without the ending that marks a source; a name with no such ending stays. -/
def stem (name : List Char) : List Char :=
  (sourceEndings.findSome? (withoutEnding? · name)).getD name

/-- The suffix to use for generated files, where no suffix means the usual one. -/
def effectiveSuffix (suffix : String) : String :=
  if suffix.isEmpty then defaultSuffix else suffix

/-- The file in directory `dir` that the builders of `unit` belong in. -/
def outputPath (unit dir suffix : String) : String :=
  Path.join dir
    (String.ofList (stem (Path.baseChars unit.toList)) ++ effectiveSuffix suffix)

end Exemplar.Pass
