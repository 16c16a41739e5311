import Exemplar.Command.Basic
import Exemplar.Command.Configure
import Exemplar.Config.Save

/-!
# What a run looks at

A run looks at few places of the file system, and its command line tells which: the places of
configuration files, the paths among its arguments, and the output files of its units. The last
ones depend on the configuration, so they are known only once the others have been looked at.
The variables of the environment that matter are those of the settings that are built in.
-/

namespace Exemplar

/-- The variables of the environment a run looks at. -/
def Environment.relevantNames : List String :=
  let keys := Settings.keys Settings.builtIn
  let tables := keys.flatMap (fun k =>
    (Settings.tablePaths (Settings.keyNames k)).map Settings.keyOf)
  "HOME" :: (keys ++ tables).eraseDups.map Settings.variableName

namespace Command.Line

/-- The places of configuration files. -/
def configPaths (around : Surroundings) : List String :=
  let cwd := around.cwd
  ConfigFile.userPath around.environment
    :: (ConfigFile.outwards (cwd.length + 2) cwd).map (Path.join · ConfigFile.projectName)

/-- The path of the configuration file a command writes, with its backups. -/
def writtenPaths (a : Arguments) : List String :=
  let path := (a.text? "path").getD ConfigFile.projectName
  path :: [1, 2, 3].map (Config.backupPath path)

/-- The paths that a command line tells by itself. -/
def ownPaths (l : Line) (around : Surroundings) : List String :=
  let a := l.arguments
  configPaths around ++ a.others ++ ["config", "tables"].filterMap a.text?
    ++ (if l.command = .initConfig then writtenPaths a else [])

/-- The output files of the units of a command line, and the directory they are in. -/
def outputPaths (l : Line) (around : Surroundings) (d : Disk) : List String :=
  let a := l.arguments
  let path := textOf a "config"
  let loaded :=
    if path.isEmpty then Config.load d around.cwd around.environment
    else Config.loadFile d around.cwd path
  match loaded with
  | .error _ => []
  | .ok c =>
    let g := (c.override a).generate
    if g.outputDir.isEmpty then []
    else g.outputDir :: a.others.map (fun u => Pass.outputPath u g.outputDir g.suffix)

end Command.Line

end Exemplar
