import Exemplar.Config.Format
import Exemplar.Disk.Access
import Exemplar.Log.Entry

/-!
# Keeping configurations

A configuration is saved over whatever was there, and the last three versions of the file are
kept beside it. Saving moves every backup one further, drops the oldest and copies the file to
the newest. A backup that cannot be dropped is only worth a warning; anything else that is
refused ends the saving, and what was moved by then stays moved.
-/

namespace Exemplar.Config

/-- The path of the backup with the given age: one for the newest, three for the oldest. -/
def backupPath (path : String) (age : Nat) : String := path ++ ".back" ++ toString age

/-- Drops the oldest backup, if the file system lets it go. -/
def dropOldest (d : Disk) (cwd path : String) : Disk :=
  match d.remove cwd (backupPath path 3) with
  | .ok next => next
  | .error _ => d

/-- Moves the backup of the given age one further, if there is one. -/
def rotate (d : Disk) (cwd path : String) (age : Nat) : Except Failure Disk :=
  let source := backupPath path age
  let target := backupPath path (age + 1)
  if d.holds cwd source then
    match d.rename cwd source target with
    | .ok next => .ok next
    | .error reason =>
      .error (.refused (.backup s!"failed to rotate .back{age} to .back{age + 1}") reason)
  else .ok d

/-- Copies a file to its newest backup. -/
def copyToNewest (d : Disk) (cwd path : String) : Except Failure Disk :=
  match d.read cwd path with
  | .error reason => .error (.refused (.backup "failed to read config for backup") reason)
  | .ok content =>
    match d.write cwd (backupPath path 1) content with
    | .error reason => .error (.refused (.backup "failed to create .back1") reason)
    | .ok next => .ok next

/-- Applies steps one after another, up to the first that fails: the outcome, and the file system
the steps that succeeded leave. -/
def inTurn : List (Disk → Except Failure Disk) → Disk → Except Failure Unit × Disk
  | [], d => (.ok (), d)
  | step :: rest, d =>
    match step d with
    | .error f => (.error f, d)
    | .ok next => inTurn rest next

/-- Whether there is a file to keep a backup of. -/
def hasPrevious (d : Disk) (cwd path : String) : Bool :=
  match d.stat cwd path with
  | .error .missing => false
  | _ => true

/-- The steps that keep the last versions of a file. -/
def backupSteps (d : Disk) (cwd path : String) : List (Disk → Except Failure Disk) :=
  if hasPrevious d cwd path then
    [fun d => .ok (dropOldest d cwd path), fun d => rotate d cwd path 2,
      fun d => rotate d cwd path 1, fun d => copyToNewest d cwd path]
  else []

/-- Writes a configuration to a path. -/
def writeFile (c : Config) (cwd path : String) (d : Disk) : Except Failure Disk :=
  match d.write cwd path (Text.ofString (c.encode .toml)) with
  | .error reason => .error (.refused (.write path) reason)
  | .ok next => .ok next

/-- Saves a configuration: the outcome, and the file system in the end. -/
def save (c : Config) (d : Disk) (cwd path : String) : Except Failure Unit × Disk :=
  match d.makeDirs cwd (Path.dir path) with
  | .error reason => (.error (.refused (.createConfigDir path) reason), d)
  | .ok made => inTurn (backupSteps made cwd path ++ [c.writeFile cwd path]) made

/-- What is said when the oldest backup is to be dropped and the file system does not let it
go. -/
def dropEntries (d : Disk) (cwd path : String) : List Log.Entry :=
  let oldest := backupPath path 3
  match d.remove cwd oldest with
  | .ok _ | .error .missing => []
  | .error refusal =>
    [⟨.warn, "", "Failed to delete old config backup",
      [.text "file" oldest, ⟨"error", .failure (Disk.reason "remove" oldest refusal)⟩]⟩]

/-- What is said while a configuration is saved. -/
def saveEntries (d : Disk) (cwd path : String) : List Log.Entry :=
  match d.makeDirs cwd (Path.dir path) with
  | .error _ => []
  | .ok made => if hasPrevious made cwd path then dropEntries made cwd path else []

end Exemplar.Config
