import Exemplar.Command.Basic

/-!
# Explanations of commands

The explanation of a command says what it is for, how to call it, and which commands and flags it
has.
-/

namespace Exemplar.Command

/-- The names on the way to a command. -/
def path : Command → List String
  | .root => [program]
  | .generate => [program, "generate"]
  | .decls => [program, "decls"]
  | .check => [program, "check"]
  | .config => [program, "config"]
  | .showConfig => [program, "config", "show"]
  | .whereConfig => [program, "config", "where"]
  | .validateConfig => [program, "config", "validate"]
  | .initConfig => [program, "config", "init"]
  | .version => [program, "version"]
  | .help => [program, "help"]
  | .completion => [program, "completion"]

/-- What a command is for. -/
def purpose : Command → String
  | .root => "Generate test-data builders from TypeScript declarations"
  | .generate => "Generate builders for TypeScript units"
  | .decls => "Show the declarations extracted from units"
  | .check => "Verify generated builders are up to date"
  | .config => "Show, validate or initialize configuration"
  | .showConfig => "Show the effective configuration"
  | .whereConfig => "List the configuration files in use"
  | .validateConfig => "Validate the effective configuration"
  | .initConfig => "Write a fixturegen.toml with default values"
  | .version => "Show version information"
  | .help => "Help about any command"
  | .completion => "Generate the autocompletion script for the specified shell"

/-- How a command is called. -/
def call (c : Command) : String :=
  " ".intercalate (c.path
    ++ (if c.children.isEmpty then [] else ["<command>"])
    ++ (if c.leastArguments = 0 then [] else ["<unit>..."])
    ++ ["[flags]"])

/-- A heading with lines below it, if there are any. -/
def helpSection (heading : String) (lines : List String) : List String :=
  if lines.isEmpty then [] else "" :: heading :: lines.map ("  " ++ ·)

/-- The explanation of a command. -/
def explanation (c : Command) : String :=
  Text.joinLines (c.purpose
    :: helpSection "Usage:" [c.call]
    ++ helpSection "Commands:" (c.children.map (fun e => e.1 ++ " - " ++ e.2.purpose))
    ++ helpSection "Flags:" (c.flags.map Flag.shown))

end Exemplar.Command
