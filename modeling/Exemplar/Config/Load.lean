import Exemplar.Config.Decode
import Exemplar.Config.Layers
import Exemplar.Disk.Access
import Exemplar.Failure
import Exemplar.Toml.Document

/-!
# Where configurations come from

There are two configuration files: one of the user, in a directory of the home directory, and
one of the project, in the nearest directory above the working directory that has one. The
project's is laid over the user's, and both over what is built in; the environment is laid over
all of it. Each setting remembers the last file that mentions it.
-/

namespace Exemplar

/-- Whose configuration a file holds. -/
inductive Owner where
  | user
  | project
deriving DecidableEq

/-- The name of an owner. -/
def Owner.name : Owner → String
  | .user => "user"
  | .project => "project"

/-- A configuration file. -/
structure ConfigFile where
  /-- Whose configuration it holds. -/
  owner : Owner
  /-- Where it is. -/
  path : String
deriving DecidableEq

namespace ConfigFile

/-- The name of the file of a project. -/
def projectName : String := "fixturegen.toml"

/-- The path of the user's file; empty without a home directory. -/
def userPath (env : Environment) : String :=
  match env.value? "HOME" with
  | some home => Path.join (Path.join home ".fixturegen") "config.toml"
  | none => ""

/-- A directory and the ones it lies in, outwards, up to one that lies in itself. At most `fuel`
of them. -/
def outwards : Nat → String → List String
  | 0, _ => []
  | fuel + 1, dir => if Path.dir dir == dir then [dir] else dir :: outwards fuel (Path.dir dir)

/-- The path of the nearest project file, from a directory outwards; empty if there is none. A
path gets shorter on the way out, or reaches the root or the working directory. -/
def findProject (d : Disk) (cwd dir : String) : String :=
  let paths := (outwards (dir.length + 2) dir).map (Path.join · projectName)
  (paths.find? (d.holds cwd ·)).getD ""

/-- The configuration files in use, the one that counts least first. -/
def inUse (d : Disk) (cwd : String) (env : Environment) : List ConfigFile :=
  let user := userPath env
  let project := findProject d cwd cwd
  let named : List ConfigFile :=
    (if user.isEmpty then [] else [⟨.user, user⟩])
      ++ (if project.isEmpty then [] else [⟨.project, project⟩])
  named.filter (fun f => d.holds cwd f.path)

/-- The settings of a configuration file. -/
def read (d : Disk) (cwd path : String) : Except Failure Settings :=
  match d.read cwd path with
  | .error _ => .error (.unreadableConfig path)
  | .ok content =>
    match Toml.read? Toml.strict content with
    | some (.record entries) =>
      .ok (Settings.ofLeaves (Settings.leaves (Settings.loweredEntries entries)))
    | _ => .error (.unreadableConfig path)

end ConfigFile

/-- What the configuration files say together, and which of them said what. -/
structure Layers where
  /-- The settings of the files, each laid over the ones before. -/
  files : Settings
  /-- The last file that mentions a key. The first entry for a key counts. -/
  mentioned : List (String × ConfigFile)

namespace Layers

/-- Nothing said. -/
def empty : Layers := ⟨[], []⟩

/-- Lays the settings of a file over others. -/
def add (l : Layers) (f : ConfigFile) (settings : Settings) : Layers :=
  ⟨Settings.overlayEntries settings l.files,
    (Settings.keys settings).map (·, f) ++ l.mentioned⟩

/-- Reads configuration files. -/
def ofFiles (d : Disk) (cwd : String) : Layers → List ConfigFile → Except Failure Layers
  | l, [] => .ok l
  | l, f :: rest =>
    match ConfigFile.read d cwd f.path with
    | .error e => .error e
    | .ok settings => ofFiles d cwd (l.add f settings) rest

/-- Reads the configuration files in use. -/
def load (d : Disk) (cwd : String) (env : Environment) : Except Failure Layers :=
  ofFiles d cwd empty (ConfigFile.inUse d cwd env)

/-- The configuration that layers amount to, if their values fit. -/
def config (l : Layers) (env : Environment) : Except Failure Config :=
  match Config.decode? (.record (Settings.effective env l.files)) with
  | some c => .ok c
  | none => .error .unfitConfig

end Layers

/-- The configuration of all sources. -/
def Config.load (d : Disk) (cwd : String) (env : Environment) : Except Failure Config := do
  let l ← Layers.load d cwd env
  l.config env

/-- The configuration of a single file over what is built in. -/
def Config.loadFile (d : Disk) (cwd path : String) : Except Failure Config := do
  let settings ← ConfigFile.read d cwd path
  match Config.decode? (.record (Settings.effective [] settings)) with
  | some c => .ok c
  | none => .error (.unfitConfigFile path)

/-- Where the effective value of a setting comes from. -/
inductive Source where
  /-- It is built in. -/
  | builtIn
  /-- A configuration file mentions it. -/
  | file (f : ConfigFile)
  /-- A variable of the environment is set. -/
  | environment (name : String)
deriving DecidableEq

namespace Source

/-- The name of a source. -/
def name : Source → String
  | .builtIn => "default"
  | .file f => f.owner.name
  | .environment _ => "environment"

/-- Where exactly. -/
def detail : Source → String
  | .builtIn => "built-in default"
  | .file f => f.path
  | .environment n => n

end Source

/-- An effective setting and where it comes from. -/
structure Setting where
  /-- Its key. -/
  key : String
  /-- Its value. -/
  value : Data
  /-- Where it comes from. -/
  source : Source

namespace Setting

/-- A setting as data, with the given names for its parts. -/
def toData (key value source detail : String) (s : Setting) : Data :=
  .record [(key, .string s.key), (value, s.value.sorted), (source, .string s.source.name),
    (detail, .string s.source.detail)]

end Setting

/-- Where the effective value of a key comes from. -/
def Layers.sourceOf (l : Layers) (env : Environment) (key : String) : Source :=
  match env.value? (Settings.variableName key) with
  | some _ => .environment (Settings.variableName key)
  | none =>
    match l.mentioned.lookup key with
    | some f => .file f
    | none => .builtIn

/-- Every effective setting, in the order of the keys. -/
def Layers.settings (l : Layers) (env : Environment) : List Setting :=
  let keys := (Settings.keys (Settings.effective env l.files)).mergeSort Data.nameLe
  keys.map (fun k => ⟨k, (Settings.value? env l.files k).getD .null, l.sourceOf env k⟩)

end Exemplar
