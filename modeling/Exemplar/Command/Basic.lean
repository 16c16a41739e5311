import Exemplar.Command.Flag
import Exemplar.Text.Basic
import Exemplar.Text.Distance
import Exemplar.Text.LetterCase

/-!
# Commands

The commands form a tree, and a command line names a path in it. The names of the path are the
first arguments that are neither flags nor their values. What is a value is decided by the flags
of the command reached so far; a flag it does not know counts as one that wants a value.

A name that leads nowhere is a mistake at the root of the tree and an argument everywhere else.
-/

namespace Exemplar

/-- A command. -/
inductive Command where
  /-- The program without a command. -/
  | root
  /-- Generates builders. -/
  | generate
  /-- Shows declarations. -/
  | decls
  /-- Checks that builders are up to date. -/
  | check
  /-- Groups the commands on the configuration. -/
  | config
  /-- Shows the configuration. -/
  | showConfig
  /-- Lists the configuration files. -/
  | whereConfig
  /-- Validates the configuration. -/
  | validateConfig
  /-- Writes a first configuration file. -/
  | initConfig
  /-- Shows the version. -/
  | version
  /-- Explains commands. -/
  | help
  /-- Completes commands in a shell. -/
  | completion
deriving DecidableEq

namespace Command

/-- The name of the program. -/
def program : String := "fixturegen"

/-- The commands below a command, by their names. -/
def children : Command → List (String × Command)
  | .root =>
    [("generate", .generate), ("decls", .decls), ("check", .check), ("config", .config),
     ("version", .version), ("help", .help), ("completion", .completion)]
  | .config =>
    [("show", .showConfig), ("where", .whereConfig), ("validate", .validateConfig),
     ("init", .initConfig)]
  | _ => []

/-- The flags all commands have. -/
def commonFlags : List Flag :=
  [⟨"verbose", some 'v', .tally⟩, ⟨"json-logs", none, .switch⟩, ⟨"config", none, .text⟩]

/-- The flags of commands that generate. -/
def generateFlags : List Flag :=
  [⟨"output", some 'o', .text⟩, ⟨"tables", none, .text⟩, ⟨"factory", none, .text⟩,
   ⟨"builder-name", none, .text⟩, ⟨"parallelism", some 'j', .number⟩]

/-- The flags a command has of its own. -/
def ownFlags : Command → List Flag
  | .generate => generateFlags ++ [⟨"watch", some 'w', .switch⟩]
  | .check => generateFlags
  | .decls => [⟨"tables", none, .text⟩, ⟨"format", none, .text⟩]
  | .showConfig => [⟨"format", none, .text⟩, ⟨"sources", none, .switch⟩]
  | .initConfig => [⟨"path", none, .text⟩, ⟨"force", none, .switch⟩]
  | .version => [⟨"json", some 'j', .switch⟩]
  | _ => []

/-- The flags that count when a command is searched for. -/
def searchFlags (c : Command) : List Flag := commonFlags ++ c.ownFlags

/-- The flag that asks for an explanation instead of a run. -/
def helpFlag : Flag := ⟨"help", some 'h', .switch⟩

/-- The flags of a command. -/
def flags (c : Command) : List Flag := c.searchFlags ++ [helpFlag]

/-- The least number of arguments of a command. -/
def leastArguments : Command → Nat
  | .generate | .check | .decls => 1
  | _ => 0

/-- Whether the next argument counts as the value of a flag, when a command is searched for. -/
def takesNext (flags : List Flag) (argument : String) : Bool :=
  let wants (f : Option Flag) : Bool := (f.map Flag.wantsValue).getD true
  match argument.toList with
  | '-' :: '-' :: body => !body.contains '=' && wants (Flag.named? flags (String.ofList body))
  | ['-', c] => c != '=' && c.toNat < 0x80 && wants (Flag.ofLetter? flags c)
  | _ => false

/-- Whether an argument starts with a dash. -/
def isDashed (argument : String) : Bool := argument.toList.head? == some '-'

/-- The arguments that are neither flags nor values of flags. Behind `--` there are none, nor
behind a flag that would take the last argument. -/
def names (flags : List Flag) : Nat → List String → List String
  | 0, _ => []
  | _, [] => []
  | fuel + 1, argument :: rest =>
    if argument == "--" then []
    else if takesNext flags argument then
      match rest with
      | _ :: next :: more => names flags fuel (next :: more)
      | _ => []
    else if argument.isEmpty || isDashed argument then names flags fuel rest
    else argument :: names flags fuel rest

/-- The arguments without the first that is a given name and no value of a flag. -/
def without (flags : List Flag) (name : String) : Nat → List String → List String
  | 0, args => args
  | _, [] => []
  | fuel + 1, argument :: rest =>
    if argument == "--" then argument :: rest
    else if takesNext flags argument then
      match rest with
      | value :: more => argument :: value :: without flags name fuel more
      | [] => [argument]
    else if argument == name && !isDashed argument then rest
    else argument :: without flags name fuel rest

/-- The names among the arguments of a command. -/
def namesOf (c : Command) (args : List String) : List String :=
  names c.searchFlags args.length args

/-- Follows names through the tree, at most `fuel` of them: the command reached, and the
arguments without its names. -/
def follow : Nat → Command → List String → Command × List String
  | 0, c, args => (c, args)
  | fuel + 1, c, args =>
    match c.namesOf args with
    | [] => (c, args)
    | name :: _ =>
      match c.children.lookup name with
      | some next => follow fuel next (without c.searchFlags name args.length args)
      | none => (c, args)

/-! ## Similar names -/

/-- Whether a command is offered when a name is not known. -/
def isOffered : Command → Bool
  | .help => false
  | _ => true

/-- The largest number of edits between similar names. -/
def tolerance : Nat := 2

/-- Whether what was typed is similar to a name: the beginning of it, or not far away. Case does
not matter. -/
def isSimilar (typed name : String) : Bool :=
  let s := (Text.ofString (Text.lowerString typed)).encode
  let t := (Text.ofString (Text.lowerString name)).encode
  Text.distance s t ≤ tolerance || s.isPrefixOf t

/-- The names of commands below a command that are similar to what was typed. -/
def similar (c : Command) (typed : String) : List String :=
  (c.children.filter (fun e => e.2.isOffered && isSimilar typed e.1)).map (·.1)

/-- The command that arguments name, and the arguments without its names. -/
def find (args : List String) : Except UsageError (Command × List String) :=
  match follow args.length .root args with
  | (.root, rest) =>
    match namesOf .root rest with
    | [] => .ok (.root, rest)
    | name :: _ => .error (.unknownCommand name program (similar .root name))
  | found => .ok found

/-! ## Command lines -/

/-- A command with its arguments. -/
structure Line where
  /-- The command. -/
  command : Command
  /-- Its arguments. -/
  arguments : Arguments

/-- Whether only an explanation is wanted: it was asked for, or there is nothing to run. -/
def Line.isHelp (l : Line) : Bool :=
  l.arguments.isOn helpFlag.name
    || [Command.root, .config, .help, .completion].contains l.command

/-- Reads a command line. -/
def Line.read (args : List String) : Except UsageError Line := do
  let (command, rest) ← Command.find args
  let arguments ← Arguments.read command.flags rest
  let line : Line := ⟨command, arguments⟩
  let given := arguments.others.length
  if !line.isHelp && given < command.leastArguments then
    throw (.tooFewArguments command.leastArguments given)
  return line

end Command

end Exemplar
