import Exemplar.Command.Configure
import Exemplar.Command.Help
import Exemplar.Config.Format
import Exemplar.Config.Save
import Exemplar.Pass.Check
import Exemplar.Pass.Watch

/-!
# Running commands

What each command does and says. A watch is the only run that does not end by itself: its first
pass is part of the run, and what is needed to go on when a file changes is part of its outcome.
-/

namespace Exemplar

/-- A watch that is under way. -/
structure Watching where
  /-- The units it watches. -/
  units : Pass.Watched
  /-- How they are processed. -/
  options : Pass.Options

namespace Session

/-- The session with a written file announced. Nothing is said about a unit without builders. -/
def announce (s : Session) (r : Pass.UnitResult) : Session :=
  let count := r.generated.builders.length
  if count = 0 then s
  else s.notify .results .success s!"{r.unit} -> {r.output} ({count} builder(s))"

/-- The session with a regeneration logged and announced. -/
def announceEvent (s : Session) (e : Pass.Event) : Session :=
  let logged := e.entries.foldl Session.log s
  match e.failure, e.result with
  | some f, _ => logged.notify .results .error f.message
  | none, some r => logged.announce r
  | none, none => logged

/-- The session after a change of the file at a path. -/
def onChange (s : Session) (w : Watching) (cwd path : String) : Session :=
  match Pass.onChange w.units s.disk cwd w.options path with
  | (none, disk) => { s with disk := disk }
  | (some e, disk) => { s with disk := disk }.announceEvent e

end Session

namespace Command

/-! ## Units -/

/-- Processes units and logs what is said about it. -/
def processUnits (o : Pass.Options) (units : List String) : Action (List Pass.UnitResult) := do
  let around ← read
  let disk := (← get).disk
  Action.log (Pass.entriesOf disk around.cwd o around.cancelled units)
  Action.ofExcept (Pass.processUnits disk around.cwd o around.cancelled units)

/-- Lists the declarations of a unit without a builder, to those who want to know. -/
def listSkipped (r : Pass.UnitResult) : Action Unit := do
  if Log.Category.skipped.isShown (← Action.verbosity) then
    r.generated.skipped.forM (fun s =>
      Action.notify .info s!"{r.unit}: skipped {s.kind.name} {s.name.toString} ({s.reason})")

/-- Writes results, up to the first that fails: the number of files written. -/
def writeResults : List Pass.UnitResult → Action Nat
  | [] => return 0
  | r :: rest => do
    let around ← read
    let written ← Action.change (Pass.writeResult · around.cwd r)
    if written then modify (·.announce r)
    else Action.log [⟨.info, "", "No builders, nothing written", [.text "unit" r.unit]⟩]
    listSkipped r
    let more ← writeResults rest
    return if written then more + 1 else more

/-- Starts a watch with its first pass. -/
def startWatch (o : Pass.Options) (units : List String) : Action Watching := do
  if o.outputDir.isEmpty then throw .watchWithoutOutput
  Action.notify .info s!"Watching {units.length} unit(s), press Ctrl+C to stop"
  let around ← read
  let (watched, events) ← Action.change (Pass.watch · around.cwd o around.cancelled units)
  modify (fun s => events.foldl Session.announceEvent s)
  return ⟨watched, o⟩

/-- Generates builders, and prints or writes them. -/
def runGenerate (a : Arguments) : Action (Option Watching) := do
  let o ← prepare a
  let units := a.others
  if a.isOn "watch" then return some (← startWatch o units)
  let results ← processUnits o units
  if o.outputDir.isEmpty then
    results.forM (fun r => Action.print r.source)
  else
    let written ← writeResults results
    let time := if Log.Category.timing.isShown (← Action.verbosity) then " in 0ms" else ""
    Action.notify .success
      (s!"Generated {written} file(s) from {results.length} unit(s)" ++ time)
  return none

/-- Checks that builders are up to date. -/
def runCheck (a : Arguments) : Action Unit := do
  let o ← prepare a
  if o.outputDir.isEmpty then throw .checkWithoutOutput
  let around ← read
  let disk := (← get).disk
  let results ← processUnits o a.others
  Action.log (Pass.staleEntries disk around.cwd results)
  let found ← Action.ofExcept (Pass.compare disk around.cwd results)
  found.stale.forM (fun r => Action.notify .warning ("Out of date: " ++ r.output))
  match found.failure? with
  | some f => throw f
  | none => Action.notify .success s!"{a.others.length} unit(s) up to date"

/-- The declarations of a unit as data. -/
def declarationsOf (r : Pass.UnitResult) : Data :=
  .record [("unit", .string r.unit),
    ("declarations", .list (r.declarations.map (fun d => d.describe.sorted)))]

/-- The format declarations are shown in. One of the formats has no list at the top. -/
def declarationFormat (name : String) : Except Failure Format :=
  if name == Format.toml.name then .ok .json else Format.find name

/-- Shows the declarations of units. -/
def runDecls (a : Arguments) : Action Unit := do
  let o ← prepare a
  let results ← processUnits { o with outputDir := "" } a.others
  let format ← Action.ofExcept (declarationFormat ((a.text? "format").getD Format.json.name))
  Action.print (Text.ofString (format.write (.list (results.map declarationsOf))))

/-! ## Configuration -/

/-- The settings with their sources as data for a format of the given name. -/
def settingsData (formatName : String) (settings : List Setting) : Data :=
  if formatName == Format.toml.name then
    .record [("settings",
      .list (settings.map (Setting.toData "Key" "Value" "Source" "SourcePath")))]
  else .list (settings.map (Setting.toData "key" "value" "source" "source_path"))

/-- Shows the effective configuration, or where each setting comes from. -/
def runShow (a : Arguments) : Action Unit := do
  let around ← read
  let formatName := (a.text? "format").getD Format.toml.name
  if a.isOn "sources" then
    let layers ← Action.ofExcept (Layers.load (← get).disk around.cwd around.environment)
    let format ← Action.ofExcept (Format.find formatName)
    let data := settingsData formatName (layers.settings around.environment)
    Action.print (Text.ofString (format.write data))
  else
    let c ← loadConfig a
    let format ← Action.ofExcept (Format.find formatName)
    Action.print (Text.ofString (c.encode format))

/-- A name in a column of eight. -/
def column (name : String) : String := name ++ Text.blanks (8 - name.length)

/-- Lists the configuration files in use. -/
def runWhere : Action Unit := do
  let around ← read
  let files := ConfigFile.inUse (← get).disk around.cwd around.environment
  if files.isEmpty then
    Action.notify .info "No configuration files found, using defaults"
  files.forM (fun f =>
    Action.print (Text.ofString (column f.owner.name ++ " " ++ f.path ++ "\n")))

/-- Validates the effective configuration. -/
def runValidate (a : Arguments) : Action Unit := do
  let _ ← loadConfig a
  Action.notify .success "Configuration is valid"

/-- Writes a first configuration file. -/
def runInit (a : Arguments) : Action Unit := do
  let around ← read
  let path := (a.text? "path").getD ConfigFile.projectName
  let disk := (← get).disk
  if disk.holds around.cwd path && !a.isOn "force" then throw (.configExists path)
  Action.log (Config.saveEntries disk around.cwd path)
  Action.change (Config.default.save · around.cwd path)
  Action.notify .success ("Wrote " ++ path)

/-! ## All commands -/

/-- Shows the version. -/
def runVersion (a : Arguments) : Action Unit := do
  let around ← read
  let b := around.build
  if a.isOn "json" then
    Action.print (Text.ofString (Json.write (.record [("commit_hash", .string b.commit),
      ("build_time", .string b.built), ("version", .string b.version),
      ("go_version", .string around.compiler), ("platform", .string around.platform)])))
  else
    Action.print (Text.ofString (Text.joinLines [b.describe,
      "Go: " ++ around.compiler ++ ", Platform: " ++ around.platform]))

/-- Runs a command. -/
def Line.run (l : Line) : Action (Option Watching) := do
  if l.isHelp then
    Action.print (Text.ofString l.command.explanation)
    return none
  let a := l.arguments
  modify (fun s => { s with
    sink := { s.sink with structured := a.isOn "json-logs", verbosity := a.tally "verbose" } })
  match l.command with
  | .generate => return ← runGenerate a
  | .check => runCheck a
  | .decls => runDecls a
  | .showConfig => runShow a
  | .whereConfig => runWhere
  | .validateConfig => runValidate a
  | .initConfig => runInit a
  | .version => runVersion a
  | .root | .config | .help | .completion => pure ()
  return none

/-- What a run leads to. -/
structure Outcome where
  /-- What was done and said. -/
  session : Session
  /-- What failed, if something did. It is reported in the session. -/
  failure : Option Failure
  /-- A watch that goes on. -/
  watching : Option Watching

/-- The exit code of a run. -/
def Outcome.code (o : Outcome) : Nat := if o.failure.isNone then 0 else 1

/-- Reads a command line and runs it. -/
def action (args : List String) : Action (Option Watching) := do
  match Line.read args with
  | .error e => throw (.usage e)
  | .ok line => line.run

/-- Runs a command line in its surroundings and on a file system. -/
def run (around : Surroundings) (disk : Disk) (colour : Bool) (args : List String) : Outcome :=
  let start : Session := ⟨disk, ⟨false, colour, 0, around.moment⟩, []⟩
  match (action args).run around |>.run.run start with
  | (.ok watching, s) => ⟨s, none, watching⟩
  | (.error f, s) => ⟨s.report f, some f, none⟩

end Command

end Exemplar
