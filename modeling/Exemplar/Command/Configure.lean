import Exemplar.Command.Flag
import Exemplar.Command.Session
import Exemplar.Config.Load
import Exemplar.Config.TablesFile
import Exemplar.Config.Validate
import Exemplar.Pass.Unit

/-!
# From arguments to options

The flags of a command are laid over the configuration, and the result has to be valid. A file
given by a flag replaces all other sources of the configuration. The tables a command resolves
names with are those of the configuration, behind those of a file given by a flag.
-/

namespace Exemplar

/-- A configuration with the flags of a command laid over it. -/
def Config.override (c : Config) (a : Arguments) : Config :=
  let g := c.generate
  { c with
    generate :=
      { g with
        outputDir := (a.text? "output").getD g.outputDir
        factory := (a.text? "factory").getD g.factory
        builderName := (a.text? "builder-name").getD g.builderName
        parallelism := (a.number? "parallelism").getD g.parallelism } }

namespace Command

/-- The text of a flag; empty if it was not given. -/
def textOf (a : Arguments) (name : String) : String := (a.text? name).getD ""

/-- What is said about a configuration that was loaded. -/
def loadedEntry (c : Config) (version : String) : Log.Entry :=
  ⟨.debug, "", "Configuration loaded",
    [.text "config" c.summary, .text "factory" c.generate.factory, .text "version" version]⟩

/-- Loads the configuration of a command and checks it. -/
def loadConfig (a : Arguments) : Action Config := do
  let around ← read
  let disk := (← get).disk
  let path := textOf a "config"
  let loaded ← Action.ofExcept
    (if path.isEmpty then Config.load disk around.cwd around.environment
     else Config.loadFile disk around.cwd path)
  let c := loaded.override a
  Action.ofExcept (c.validate around.build.version)
  if c.log.json then modify (fun s => { s with sink := { s.sink with structured := true } })
  Action.log [loadedEntry c around.build.version]
  let verbosity ← Action.verbosity
  if Log.Category.config.isShown verbosity then
    Action.notify .info ("Verbosity: " ++ Log.verbosityName verbosity ++ ", " ++ c.summary)
  return c

/-- The tables a command resolves names with. -/
def loadTables (a : Arguments) (c : Config) : Action Tables := do
  let path := textOf a "tables"
  if path.isEmpty then return c.tables
  let around ← read
  let tables ← Action.ofExcept (TablesFile.read (← get).disk around.cwd path)
  return tables.merge c.tables

/-- How a command processes units. -/
def passOptions (a : Arguments) (c : Config) : Action Pass.Options := do
  let tables ← loadTables a c
  let factory ← Action.ofExcept (ValueFactory.find c.generate.factory c.generate.builderName)
  return {
    tables := tables
    generator := ⟨factory, Text.ofString c.generate.header⟩
    outputDir := c.generate.outputDir
    suffix := c.generate.suffix
    parallelism := c.generate.parallelism }

/-- Loads the configuration of a command and the options it amounts to. -/
def prepare (a : Arguments) : Action Pass.Options := do
  let c ← loadConfig a
  passOptions a c

end Command

end Exemplar
