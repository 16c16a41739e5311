import Exemplar.Builder.Values
import Exemplar.Data
import Exemplar.Model.Tables
import Exemplar.Pass.Output
import Exemplar.Text.Quoted

/-!
# Configuration

What a user can settle once for all runs: how builders are generated, which names the types of a
unit are resolved with, how the log is written, and which versions of the program will do.

A list that nobody mentioned is `none`. It reads as the empty list everywhere; only a dump tells
the two apart.
-/

namespace Exemplar

/-- How builders are generated. -/
structure GenerateConfig where
  /-- The object sampled values are requested from. -/
  builderName : String
  /-- The name of the value factory. -/
  factory : String
  /-- The text before the first builder. -/
  header : String
  /-- The directory generated files go to; empty to print them. -/
  outputDir : String
  /-- The suffix of generated files. -/
  suffix : String
  /-- The number of units processed at once; zero for as many as there are processors. -/
  parallelism : Int
deriving DecidableEq

/-- An enumeration with the names of its values. -/
structure EnumConfig where
  /-- Its name. -/
  name : String
  /-- The names of its values. -/
  values : Option (List String)
deriving DecidableEq

/-- Names that types are resolved with. -/
structure TypesConfig where
  /-- The names to treat as elementary classes. -/
  elementary : Option (List String)
  /-- The enumerations. -/
  enums : Option (List EnumConfig)
deriving DecidableEq

/-- How the log is written. -/
structure LogConfig where
  /-- Whether entries are written for machines. -/
  json : Bool
deriving DecidableEq

/-- A configuration. -/
structure Config where
  /-- How builders are generated. -/
  generate : GenerateConfig
  /-- Names that types are resolved with. -/
  types : TypesConfig
  /-- How the log is written. -/
  log : LogConfig
  /-- The versions of the program that will do; empty for all. -/
  requires : String
deriving DecidableEq

namespace EnumConfig

/-- The entry as data, where `unset` stands for a list nobody mentioned. -/
def toData (unset : Data) (e : EnumConfig) : Data :=
  .record [("name", .string e.name), ("values", (e.values.map Data.strings).getD unset)]

end EnumConfig

namespace Config

/-- The configuration in force when nothing is settled. -/
def default : Config :=
  { generate :=
      { builderName := ValueFactory.defaultReceiver
        factory := ValueFactory.samplingName
        header := ""
        outputDir := ""
        suffix := Pass.defaultSuffix
        parallelism := 0 }
    types := { elementary := some [], enums := some [] }
    log := { json := false }
    requires := "" }

/-- The elementary names of a configuration. -/
def elementaryList (c : Config) : List String := c.types.elementary.getD []

/-- The enumerations of a configuration. -/
def enumList (c : Config) : List EnumConfig := c.types.enums.getD []

/-- The resolution tables of a configuration. Of two entries for one enumeration the last
counts. -/
def tables (c : Config) : Tables :=
  Tables.ofLastEntries (c.elementaryList.map Text.ofString)
    (c.enumList.map (fun e => (Text.ofString e.name, (e.values.getD []).map Text.ofString)))

/-- A summary on one line. -/
def summary (c : Config) : String :=
  "Config\x7bGenerate: \x7bFactory: " ++ c.generate.factory ++ ", BuilderName: "
    ++ c.generate.builderName ++ ", OutputDir: " ++ quotedString c.generate.outputDir
    ++ "\x7d, Types: \x7bElementary: " ++ toString c.elementaryList.length ++ ", Enums: "
    ++ toString c.enumList.length ++ "\x7d\x7d"

/-- A configuration as data, where `unset` stands for a list nobody mentioned. A requirement is
listed only if there is one. -/
def toData (unset : Data) (c : Config) : Data :=
  let g := c.generate
  .record ([
    ("generate", .record [
      ("builder_name", .string g.builderName),
      ("factory", .string g.factory),
      ("header", .string g.header),
      ("output_dir", .string g.outputDir),
      ("suffix", .string g.suffix),
      ("parallelism", .int g.parallelism)]),
    ("types", .record [
      ("elementary", (c.types.elementary.map Data.strings).getD unset),
      ("enums",
        (c.types.enums.map (fun l => .list (l.map (EnumConfig.toData unset)))).getD unset)]),
    ("log", .record [("json", .bool c.log.json)])]
    ++ (if c.requires.isEmpty then [] else [("requires", .string c.requires)]))

end Config

end Exemplar
