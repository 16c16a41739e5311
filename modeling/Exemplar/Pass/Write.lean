import Exemplar.Pass.Unit

/-!
# Writing builders

The builders of a unit are written to its output file, whose directory is made if need be. A unit
without builders writes nothing, and nothing is removed.
-/

namespace Exemplar.Pass

/-- Writes a result. Tells whether a file was written, and leaves what was made on the way. -/
def writeResult (d : Disk) (cwd : String) (r : UnitResult) : Except Failure Bool × Disk :=
  if r.output.isEmpty then (.error .noOutputPath, d)
  else if r.source.isEmpty then (.ok false, d)
  else
    let dir := Path.dir r.output
    match d.makeDirs cwd dir with
    | .error reason => (.error (.refused (.createDir dir) reason), d)
    | .ok made =>
      match made.write cwd r.output r.source with
      | .error reason => (.error (.refused (.write r.output) reason), made)
      | .ok written => (.ok true, written)

/-- Writes results one after another, each on the file system the one before left: what became of
each, and the file system in the end. -/
def writeEach (cwd : String) : Disk → List UnitResult → List (Except Failure Bool) × Disk
  | d, [] => ([], d)
  | d, r :: rest =>
    let (outcome, next) := writeResult d cwd r
    let (outcomes, last) := writeEach cwd next rest
    (outcome :: outcomes, last)

/-- Writes results up to the first that fails: whether each was written, and the file system in
the end. -/
def writeAll (cwd : String) : Disk → List UnitResult → Except Failure (List Bool) × Disk
  | d, [] => (.ok [], d)
  | d, r :: rest =>
    match writeResult d cwd r with
    | (.error f, next) => (.error f, next)
    | (.ok written, next) =>
      match writeAll cwd next rest with
      | (.error f, last) => (.error f, last)
      | (.ok more, last) => (.ok (written :: more), last)

/-- Processes units and writes what they yield. If a unit fails, nothing is written. -/
def generate (d : Disk) (cwd : String) (o : Options) (cancelled : Bool) (units : List String) :
    Except Failure (List Bool) × Disk :=
  match processUnits d cwd o cancelled units with
  | .error f => (.error f, d)
  | .ok results => writeAll cwd d results

end Exemplar.Pass
