import Exemplar.Pass.Write

/-!
# Watching units

A watch regenerates a unit when its file changes, and keeps its output file in step: written
when there are builders, removed when there are none any more. The directories of the units are
watched rather than the files, so that a file replaced as a whole is noticed, and every one of
them has to be there at the start.
-/

namespace Exemplar.Pass

/-- What a regeneration leads to. -/
structure Event where
  /-- What the pass yields, if it succeeds. -/
  result : Option UnitResult
  /-- What failed, in the pass or in bringing the output file into step. -/
  failure : Option Failure
  /-- Whether an output file was removed. -/
  removed : Bool

/-- Brings the output file of a result into step. Tells whether it was removed. -/
def sync (d : Disk) (cwd : String) (r : UnitResult) : Except Failure Bool × Disk :=
  if r.output.isEmpty then (.ok false, d)
  else match writeResult d cwd r with
    | (.error f, next) => (.error f, next)
    | (.ok true, next) => (.ok false, next)
    | (.ok false, next) =>
      match next.remove cwd r.output with
      | .ok last => (.ok true, last)
      | .error .missing => (.ok false, next)
      | .error refusal =>
        (.error (.refused (.remove r.output) (Disk.reason "remove" r.output refusal)), next)

/-- Regenerates a unit. -/
def regenerate (d : Disk) (cwd : String) (o : Options) (cancelled : Bool) (unit : String) :
    Event × Disk :=
  match processUnit d cwd o cancelled unit with
  | .error f => (⟨none, some f, false⟩, d)
  | .ok r =>
    match sync d cwd r with
    | (.error f, next) => (⟨some r, some f, false⟩, next)
    | (.ok removed, next) => (⟨some r, none, removed⟩, next)

/-- Regenerates units one after another. -/
def regenerateAll (cwd : String) (o : Options) (cancelled : Bool) :
    Disk → List String → List Event × Disk
  | d, [] => ([], d)
  | d, unit :: rest =>
    let (event, next) := regenerate d cwd o cancelled unit
    let (events, last) := regenerateAll cwd o cancelled next rest
    (event :: events, last)

/-- What is said about a regeneration. -/
def Event.entries (e : Event) : List Log.Entry :=
  match e.result with
  | none => []
  | some r =>
    r.entries
      ++ (if e.removed then
            [⟨.info, "pipeline", "Removed output of unit without builders",
              [.text "unit" r.unit, .text "output" r.output]⟩]
          else [])

/-- The units of a watch: the path each leads to from the root, and the path as it was given. The
last of several ways to give the same path counts. -/
abbrev Watched := List (String × String)

/-- Starts to watch a directory, which has to be there. -/
def watchDirectory (d : Disk) (cwd dir : String) : Except Failure Unit :=
  match d.stat cwd dir with
  | .error refusal => .error (.refused (.watch dir) refusal.text)
  | .ok _ => .ok ()

/-- Starts to watch units. Fails if one of their directories is not there. -/
def startWatch (d : Disk) (cwd : String) : List String → Except Failure Watched
  | [] => .ok []
  | unit :: rest => do
    let path := Path.resolve cwd unit
    watchDirectory d cwd (Path.dir path)
    let more ← startWatch d cwd rest
    return more ++ [(path, unit)]

/-- The unit whose file is at a path, as it was given. -/
def Watched.unitAt? (w : Watched) (cwd path : String) : Option String :=
  w.lookup (Path.resolve cwd path)

/-- Starts to watch units and brings the output files of all of them into step. -/
def watch (d : Disk) (cwd : String) (o : Options) (cancelled : Bool) (units : List String) :
    Except Failure (Watched × List Event) × Disk :=
  match startWatch d cwd units with
  | .error f => (.error f, d)
  | .ok watched =>
    let (events, last) := regenerateAll cwd o cancelled d units
    (.ok (watched, events), last)

/-- A change of the file at a path: the event it leads to, if it is that of a unit. -/
def onChange (w : Watched) (d : Disk) (cwd : String) (o : Options) (path : String) :
    Option Event × Disk :=
  match w.unitAt? cwd path with
  | none => (none, d)
  | some unit =>
    let (event, next) := regenerate d cwd o false unit
    (some event, next)

end Exemplar.Pass
