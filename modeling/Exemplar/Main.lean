import Exemplar.Command.Run
import Exemplar.Command.Scope
import Exemplar.Disk.Changes
import Std.Time.DateTime.Timestamp

/-!
# The program

The outer layer: it looks at the places a run needs, runs it, says what the run says and carries
its changes over to the file system. Everything else is decided elsewhere.
-/

namespace Exemplar.Program

/-- The text of a file, if it can be read. -/
def fileText? (path : String) : IO (Option Text) := do
  try
    let bytes ← IO.FS.readBinFile path
    return some (Text.decode bytes.toList)
  catch _ => return none

/-- Looks at places, the outermost first, up to one with nothing in it. -/
def lookAt : Disk → List Place → IO Disk
  | d, [] => return d
  | d, p :: rest => do
    let path := Disk.pathOf p
    let location := (← IO.currentDir) / path
    if ← location.isDir then lookAt (d.set p .directory) rest
    else match ← fileText? path with
      | some t => return d.set p (.file t)
      | none => return d.erase p

/-- Looks at a path and at the places on the way to it. -/
def look (d : Disk) (cwd path : String) : IO Disk :=
  let place := ((Disk.names (Path.resolve cwd path)).filter (!·.isEmpty)).reverse
  lookAt d ((List.range place.length).map (fun i => place.drop (place.length - 1 - i)))

/-- Looks at paths. -/
def lookAll (d : Disk) (cwd : String) (paths : List String) : IO Disk :=
  paths.foldlM (fun d path => if path.isEmpty then pure d else look d cwd path) d

/-- Says messages. -/
def say (messages : List Message) : IO Unit :=
  messages.forM (fun m => do
    let stream ← match m.channel with
      | .results => IO.getStdout
      | .remarks => IO.getStderr
    stream.write ⟨m.text.encode.toArray⟩
    stream.flush)

/-- Carries out a change. -/
def carryOut : Disk.Change → IO Unit
  | .removeFile path => IO.FS.removeFile path
  | .removeDir path => IO.FS.removeDir path
  | .makeDir path => IO.FS.createDirAll path
  | .write path content => IO.FS.writeBinFile path ⟨content.encode.toArray⟩

/-- The surroundings of this run. -/
def surroundings : IO Surroundings := do
  let seconds := (← Std.Time.Timestamp.now).toSecondsSinceUnixEpoch.val.toNat
  let two (n : Nat) : String := (if n < 10 then "0" else "") ++ toString n
  let clock := ":".intercalate ([seconds / 3600 % 24, seconds / 60 % 60, seconds % 60].map two)
  let environment ← Environment.relevantNames.filterMapM (fun name => do
    return (← IO.getEnv name).map (name, ·))
  return {
    cwd := (← IO.currentDir).toString
    environment := environment
    build := .unknown
    compiler := "unknown"
    platform := "unknown"
    moment := ⟨clock, toString seconds⟩
    cancelled := false }

/-- Looks at what a command line needs. -/
def snapshot (around : Surroundings) (args : List String) : IO Disk := do
  let d ← look .empty around.cwd around.cwd
  match Command.Line.read args with
  | .error _ => return d
  | .ok line =>
    let d ← lookAll d around.cwd (line.ownPaths around)
    lookAll d around.cwd (line.outputPaths around d)

/-- Says what is new in a session and carries its changes out. -/
def settle (before : Disk) (s : Session) : IO Session := do
  say s.messages
  (before.changes s.disk).forM carryOut
  return { s with messages := [] }

/-- Looks at the watched units once, and regenerates those that changed. -/
def poll (around : Surroundings) (w : Watching) (s : Session) : IO Session :=
  w.units.foldlM (fun s unit => do
    let seen ← look s.disk around.cwd unit.1
    let known := s.disk.stat around.cwd unit.1
    match seen.stat around.cwd unit.1, known with
    | .ok (.file now), .ok (.file old) =>
      if now = old then return s
      else settle seen ({ s with disk := seen }.onChange w around.cwd unit.1)
    | .ok (.file _), _ => settle seen ({ s with disk := seen }.onChange w around.cwd unit.1)
    | _, _ => return { s with disk := seen }) s

end Exemplar.Program

/-- Runs the program, and keeps watching if it was asked to. -/
def main (args : List String) : IO UInt32 := do
  let around ← Exemplar.Program.surroundings
  let disk ← Exemplar.Program.snapshot around args
  let outcome := Exemplar.Command.run around disk true args
  let mut session ← Exemplar.Program.settle disk outcome.session
  if let some w := outcome.watching then
    repeat
      IO.sleep 200
      session ← Exemplar.Program.poll around w session
  return if outcome.code = 0 then 0 else 1
