import Exemplar.Pass.Unit

/-!
# Passes at the same time

The passes over several units go on at the same time, as many as are allowed. Each of them is
started, looks once whether the run was cancelled, and goes to its end; its result goes into a
slot of its own. The first failure is recorded and cancels the run, so that passes which look
afterwards fail as well, but their failures are not recorded. Once all passes have ended, the
run returns the failure if there is one, and the slots otherwise.

Which pass takes the next step is left open: `Group.Step` allows any order, and so `Returns`
says what can be returned. `processUnits` is one of these orders, in which every pass ends
before the next one starts.
-/

namespace Exemplar.Pass

/-- How far a pass has come. -/
inductive Stage where
  /-- It has not been started. -/
  | waiting
  /-- It has been started, and has not looked yet whether the run was cancelled. -/
  | started
  /-- It has looked, and goes on with what it saw. -/
  | running (cancelled : Bool)
  /-- It has ended, and its slot has the result unless it failed. -/
  | ended (slot : Option UnitResult)

/-- A pass over a unit, among others. -/
structure Job where
  /-- The unit. -/
  unit : String
  /-- How far the pass has come. -/
  stage : Stage

namespace Job

/-- Whether a pass is one of those that go on at the same time. -/
def inFlight (j : Job) : Bool :=
  match j.stage with
  | .waiting | .ended _ => false
  | .started | .running _ => true

/-- Whether a pass has ended. -/
def hasEnded (j : Job) : Bool :=
  match j.stage with
  | .ended _ => true
  | _ => false

/-- What is in the slot of a pass. -/
def slot (j : Job) : Option UnitResult :=
  match j.stage with
  | .ended slot => slot
  | _ => none

end Job

/-- The number of passes that may go on at the same time: as many as there are processors, if
the options do not say. -/
def Options.limit (o : Options) (processors : Nat) : Nat :=
  if o.parallelism ≤ 0 then processors else o.parallelism.toNat

/-- A run over units. -/
structure Group where
  /-- The passes, in the order of the units. -/
  jobs : List Job
  /-- The failure that was recorded first. -/
  failure : Option Failure
  /-- Whether the passes that look are told to stop. -/
  cancelled : Bool
  /-- Whether the run was cancelled from outside. -/
  interrupted : Bool
  /-- Whether the parser broke down in a pass, which ends the program. -/
  broken : Bool

namespace Group

/-- A run at its start. -/
def start (units : List String) : Group := ⟨units.map (⟨·, .waiting⟩), none, false, false, false⟩

/-- The number of passes that go on. -/
def inFlight (g : Group) : Nat := g.jobs.countP Job.inFlight

/-- The run with a failure recorded, unless there is one already. -/
def record (g : Group) (f : Failure) : Group := { g with failure := g.failure <|> some f }

/-- How a pass over a unit can go on: from which stage to which, and what becomes of the run
otherwise. -/
inductive Move (d : Disk) (cwd : String) (o : Options) (limit : Nat)
    (g : Group) (unit : String) :
    Stage → Stage → Group → Prop
  /-- It is started, if not too many go on already. -/
  | launch (hlimit : g.inFlight < limit) : Move d cwd o limit g unit .waiting .started g
  /-- It looks whether the run was cancelled. -/
  | look : Move d cwd o limit g unit .started (.running g.cancelled) g
  /-- It succeeds. -/
  | succeed {cancelled : Bool} {r : UnitResult}
      (h : processUnit d cwd o cancelled unit = .ok r) :
    Move d cwd o limit g unit (.running cancelled) (.ended (some r)) g
  /-- It fails. -/
  | fail {cancelled : Bool} {f : Failure} (h : processUnit d cwd o cancelled unit = .error f)
      (hf : f ≠ .breakdown) :
    Move d cwd o limit g unit (.running cancelled) (.ended none) (g.record f)
  /-- The parser breaks down. -/
  | breakDown {cancelled : Bool} (h : processUnit d cwd o cancelled unit = .error .breakdown) :
    Move d cwd o limit g unit (.running cancelled) (.running cancelled) { g with broken := true }

/-- How a run can go on. -/
inductive Step (d : Disk) (cwd : String) (o : Options) (limit : Nat) (g : Group) : Group → Prop
  /-- One of its passes goes on. -/
  | pass {front back : List Job} {unit : String} {stage stage' : Stage} {next : Group}
      (hlive : g.broken = false) (hjobs : g.jobs = front ++ ⟨unit, stage⟩ :: back)
      (hmove : Move d cwd o limit g unit stage stage' next) :
    Step d cwd o limit g { next with jobs := front ++ ⟨unit, stage'⟩ :: back }
  /-- It is cancelled because a failure was recorded. -/
  | cancel (hlive : g.broken = false) (hfailure : g.failure ≠ none)
      (hcancelled : g.cancelled = false) :
    Step d cwd o limit g { g with cancelled := true }
  /-- It is cancelled from outside. -/
  | interrupt (hlive : g.broken = false) (hinterrupted : g.interrupted = false) :
    Step d cwd o limit g { g with cancelled := true, interrupted := true }

/-- What a run has come to after a number of steps. -/
inductive Run (d : Disk) (cwd : String) (o : Options) (limit : Nat) (units : List String) :
    Nat → Group → Prop
  /-- The start. -/
  | start : Run d cwd o limit units 0 (start units)
  /-- One step more. -/
  | step {n : Nat} {g g' : Group} (hrun : Run d cwd o limit units n g)
      (hstep : Step d cwd o limit g g') :
    Run d cwd o limit units (n + 1) g'

/-- What a run returns once all its passes have ended: the failure, or the slots in the order of
the units. -/
def outcome? (g : Group) : Option (Except Failure (List (Option UnitResult))) :=
  if g.broken then none
  else if g.jobs.all Job.hasEnded then
    match g.failure with
    | some f => some (.error f)
    | none => some (.ok (g.jobs.map Job.slot))
  else none

end Group

/-- What can be returned for units, unless the run is cancelled from outside. Units that would
write the same file are refused, and no pass is started. -/
def Returns (d : Disk) (cwd : String) (o : Options) (processors : Nat) (units : List String)
    (outcome : Except Failure (List (Option UnitResult))) : Prop :=
  match o.checkCollisions units with
  | .error f => outcome = .error f
  | .ok () => ∃ n g, Group.Run d cwd o (o.limit processors) units n g ∧ g.interrupted = false ∧
      g.outcome? = some outcome

end Exemplar.Pass
