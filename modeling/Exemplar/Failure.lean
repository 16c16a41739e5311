import Exemplar.Builder.Values
import Exemplar.Cause
import Exemplar.Command.Usage
import Exemplar.Diagnostic

/-!
# What can fail

Every way in which a run can end without a result is a constructor of `Failure`, with what a
message needs to know. What each of them says, which hints it gives and which known cause is
behind it are functions on that type, so a caller decides by the constructor and never by the
text.
-/

namespace Exemplar

/-- What the file system was asked to do when it refused. -/
inductive FileAction where
  /-- Creating the directory for an output. -/
  | createDir (path : String)
  /-- Writing a file. -/
  | write (path : String)
  /-- Reading a file. -/
  | read (path : String)
  /-- Removing a file. -/
  | remove (path : String)
  /-- Watching a directory. -/
  | watch (path : String)
  /-- Creating the directory for a configuration file. -/
  | createConfigDir (path : String)
  /-- A step in keeping backups of a configuration file, as a message names it. -/
  | backup (step : String)
deriving DecidableEq

/-- What a message says about a refused action. -/
def FileAction.context : FileAction → String
  | .createDir path => "failed to create " ++ path
  | .write path => "failed to write " ++ path
  | .read path => "failed to read " ++ path
  | .remove path => "failed to remove " ++ path
  | .watch path => "failed to watch " ++ path
  | .createConfigDir path => "failed to create directory for " ++ path
  | .backup step => "failed to create backup: " ++ step

/-- A way in which a run can end without a result. -/
inductive Failure where
  /-- A source could not be read. -/
  | source (diagnostic : Diagnostic)
  /-- The parser itself broke down on a source. -/
  | breakdown
  /-- The run was cancelled. -/
  | canceled
  /-- A unit could not be opened or read, for a reason given by the file system. -/
  | unreadableUnit (unit reason : String)
  /-- No value factory has the given name. -/
  | unknownFactory (name : String)
  /-- The number of units to process at once is negative. -/
  | negativeParallelism (n : Int)
  /-- Output files would not be sources. -/
  | wrongSuffix (suffix : String)
  /-- An enumeration of the configuration has no name. -/
  | unnamedEnum (index : Nat)
  /-- Two enumerations of the configuration have one name. -/
  | repeatedEnum (name : String)
  /-- An elementary class of the configuration has no name. -/
  | unnamedElementary
  /-- A version constraint cannot be read. -/
  | wrongConstraint (constraint reason : String)
  /-- A version constraint is not met. -/
  | unmetConstraint (constraint current : String)
  /-- No output format has the given name. -/
  | unknownFormat (name : String)
  /-- Two units would write the same file. -/
  | collision (first second output : String)
  /-- Checking needs to know where the generated files are. -/
  | checkWithoutOutput
  /-- Watching needs to know where generated files go. -/
  | watchWithoutOutput
  /-- Some generated files are out of date. -/
  | stale (count total : Nat)
  /-- A result was to be written without saying where. -/
  | noOutputPath
  /-- The file system refused something. -/
  | refused (action : FileAction) (reason : String)
  /-- A configuration file could not be read. -/
  | unreadableConfig (path : String)
  /-- The values of a configuration file do not fit. -/
  | unfitConfig
  /-- The values of the only configuration file do not fit. -/
  | unfitConfigFile (path : String)
  /-- A tables file could not be read. -/
  | unreadableTables (path : String)
  /-- A tables file has entries that mean nothing. -/
  | unknownTableKeys (path : String) (keys : List String)
  /-- A configuration file would be overwritten. -/
  | configExists (path : String)
  /-- The command line was not understood. -/
  | usage (e : UsageError)
deriving DecidableEq

namespace Failure

/-- The chain of causes behind a failure. -/
def cause : Failure → Cause
  | .source d => .plain d.plain
  | .breakdown => .plain "panic"
  | .canceled => .plain "context canceled"
  | .unreadableUnit unit reason =>
    .hinted "pass the path of an existing .ts file" (.unresolvedUnit unit reason)
  | .unknownFactory name =>
    .hinted ("use " ++ quotedString ValueFactory.samplingName ++ " or "
        ++ quotedString ValueFactory.literalName)
      (.invalidConfig ("unknown value factory " ++ quotedString name))
  | .negativeParallelism n => .invalidConfig s!"generate.parallelism must be >= 0, got {n}"
  | .wrongSuffix suffix =>
    .hinted "the default is .builder.ts"
      (.invalidConfig ("generate.suffix must end in .ts, got " ++ quotedString suffix))
  | .unnamedEnum index => .invalidConfig s!"types.enums[{index}] has no name"
  | .repeatedEnum name => .invalidConfig ("types.enums: " ++ name ++ " declared twice")
  | .unnamedElementary => .invalidConfig "types.elementary contains an empty name"
  | .wrongConstraint constraint reason =>
    .invalidConfig ("invalid version constraint " ++ quotedString constraint ++ ": " ++ reason)
  | .unmetConstraint constraint current =>
    .hinted "upgrade fixturegen or relax the requires setting"
      (.plain
        ("configuration requires fixturegen " ++ constraint ++ ", but running " ++ current))
  | .unknownFormat name =>
    .hinted "use toml, json or yaml" (.invalidConfig ("unknown format " ++ quotedString name))
  | .collision first second output =>
    .hinted "generate them into different output directories"
      (.invalidConfig (first ++ " and " ++ second ++ " would both write " ++ output))
  | .checkWithoutOutput =>
    .hinted "pass -o or set generate.output_dir"
      (.invalidConfig "check needs an output directory")
  | .watchWithoutOutput =>
    .hinted "pass -o <dir>" (.invalidConfig "--watch needs an output directory")
  | .stale count total =>
    .hinted "run 'fixturegen generate' to regenerate them"
      (.wrapped s!"{count} of {total} builder files" (.known .staleOutput))
  | .noOutputPath => .plain "unit result has no output path"
  | .refused action reason => .wrapped action.context (.plain reason)
  | .unreadableConfig path =>
    .hinted "check the file is valid TOML" (.plain ("failed to read config file " ++ path))
  | .unfitConfig => .plain "failed to unmarshal config"
  | .unfitConfigFile path =>
    .wrapped ("failed to unmarshal config from " ++ path) (.plain "failed to unmarshal config")
  | .unreadableTables path => .plain ("failed to read tables file " ++ path)
  | .unknownTableKeys path keys =>
    .hinted "a tables file holds only 'elementary' and an [enums] table"
      (.invalidConfig ("tables file " ++ path ++ " has unknown keys: " ++ ", ".intercalate keys))
  | .configExists path =>
    .hinted "pass --force to overwrite it (a backup is kept)"
      (.plain (path ++ " already exists"))
  | .usage e => .plain e.message

/-- What a failure says. -/
def message (f : Failure) : String := f.cause.message

/-- The hints a failure gives. -/
def hints (f : Failure) : List String := f.cause.hints

/-- The classes of failure a caller may want to tell apart. -/
inductive Category where
  /-- A token does not end. -/
  | lexical
  /-- A token stands where the grammar does not accept it. -/
  | grammatical
  /-- A unit could not be read. -/
  | unresolvedUnit
  /-- A configuration value was refused. -/
  | invalidConfig
  /-- The generated files are out of date. -/
  | staleOutput
  /-- The run was cancelled. -/
  | canceled
  /-- The parser broke down. -/
  | breakdown
  /-- Anything else. -/
  | other
deriving DecidableEq

/-- The class of a failure. -/
def category : Failure → Category
  | .source d =>
    match d.kind with
    | .lexical => .lexical
    | .grammatical => .grammatical
  | .breakdown => .breakdown
  | .canceled => .canceled
  | .unreadableConfig _ | .unreadableTables _ => .invalidConfig
  | f =>
    if f.cause.has .unresolvedUnit then .unresolvedUnit
    else if f.cause.has .invalidConfig then .invalidConfig
    else if f.cause.has .staleOutput then .staleOutput
    else .other

end Failure

/-- Reads a unit, with the reason when it cannot be read. -/
def Tree.SourceUnit.read (name : String) (source : Text) : Except Failure Tree.SourceUnit :=
  match Tree.SourceUnit.parse name source with
  | .ok u => .ok u
  | .error halt =>
    match halt.diagnostic? name with
    | some d => .error (.source d)
    | none => .error .breakdown

/-- Reads a type, with the reason when it cannot be read. -/
def Tree.TypeExpr.read (source : Text) : Except Failure Tree.TypeExpr :=
  match Tree.TypeExpr.parse source with
  | .ok t => .ok t
  | .error halt =>
    match halt.diagnostic? "" with
    | some d => .error (.source d)
    | none => .error .breakdown

/-- The value factory of a given name, which must be known. -/
def ValueFactory.find (name receiver : String) : Except Failure ValueFactory :=
  match ValueFactory.named? name receiver with
  | some f => .ok f
  | none => .error (.unknownFactory name)

end Exemplar
