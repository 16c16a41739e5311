import Exemplar.Pass.Unit

/-!
# Checking builders

A check generates everything anew without writing it, and compares with the files that are
there. A file is stale if it differs, or if it is missing although there are builders for it. An
empty file is as good as none for a unit without builders.
-/

namespace Exemplar.Pass

/-- Whether the output file of a result is out of date. -/
def isStale (d : Disk) (cwd : String) (r : UnitResult) : Except Failure Bool :=
  match d.stat cwd r.output with
  | .error .missing => .ok (!r.source.isEmpty)
  | _ =>
    match d.read cwd r.output with
    | .ok content => .ok (content != r.source)
    | .error reason => .error (.refused (.read r.output) reason)

/-- The results whose output files are out of date, in their order. -/
def staleOnes (d : Disk) (cwd : String) : List UnitResult → Except Failure (List UnitResult)
  | [] => .ok []
  | r :: rest => do
    let stale ← isStale d cwd r
    let more ← staleOnes d cwd rest
    return if stale then r :: more else more

/-- What a check finds. -/
structure CheckResult where
  /-- The results whose output files are out of date, in their order. -/
  stale : List UnitResult
  /-- The number of units. -/
  total : Nat

namespace CheckResult

/-- Whether every file is up to date. -/
def upToDate (c : CheckResult) : Bool := c.stale.isEmpty

/-- The failure a check ends with, if a file is out of date. -/
def failure? (c : CheckResult) : Option Failure :=
  if c.upToDate then none else some (.stale c.stale.length c.total)

end CheckResult

/-- Compares results with their output files. -/
def compare (d : Disk) (cwd : String) (results : List UnitResult) : Except Failure CheckResult :=
  (staleOnes d cwd results).map (⟨·, results.length⟩)

/-- Checks the output files of units. -/
def check (d : Disk) (cwd : String) (o : Options) (cancelled : Bool) (units : List String) :
    Except Failure CheckResult := do
  if o.outputDir.isEmpty then throw .checkWithoutOutput
  let results ← processUnits d cwd o cancelled units
  compare d cwd results

/-- What is said about files found out of date, up to one that cannot be read. -/
def staleEntries (d : Disk) (cwd : String) : List UnitResult → List Log.Entry
  | [] => []
  | r :: rest =>
    match isStale d cwd r with
    | .error _ => []
    | .ok false => staleEntries d cwd rest
    | .ok true =>
      ⟨.debug, "pipeline", "Output is stale", [.text "unit" r.unit, .text "output" r.output]⟩
        :: staleEntries d cwd rest

end Exemplar.Pass
