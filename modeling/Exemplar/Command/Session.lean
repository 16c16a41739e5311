import Exemplar.Command.Notice
import Exemplar.Config.Layers
import Exemplar.Disk.Basic
import Exemplar.Failure
import Exemplar.Log.Sink
import Exemplar.Version.Build

/-!
# Sessions

A run of a command is a function of its surroundings and of the file system. What it does to the
file system and what it says, on which channel and in which order, is its session. An action may
fail at any point, and the session then holds what was done and said so far. No time passes in a
session: everything is said at one moment, and every duration is zero.
-/

namespace Exemplar

/-- What a run finds around it and cannot change. -/
structure Surroundings where
  /-- The working directory. -/
  cwd : String
  /-- The environment. -/
  environment : Environment
  /-- What the build knows about itself. -/
  build : BuildInfo
  /-- The compiler of the build. -/
  compiler : String
  /-- The platform of the build. -/
  platform : String
  /-- When the run takes place. -/
  moment : Log.Moment
  /-- Whether the run was cancelled before it began. -/
  cancelled : Bool

/-- Where something is said. -/
inductive Channel where
  /-- Where results go. -/
  | results
  /-- Where failures and log entries go. -/
  | remarks
deriving DecidableEq

/-- Something said on a channel. -/
structure Message where
  /-- The channel. -/
  channel : Channel
  /-- What is said. -/
  text : Text

/-- What a run has done so far. -/
structure Session where
  /-- The file system it leaves. -/
  disk : Disk
  /-- How log entries are written. -/
  sink : Log.Sink
  /-- What was said, in its order. -/
  messages : List Message

namespace Session

/-- All that was said on a channel. -/
def said (s : Session) (c : Channel) : Text :=
  (s.messages.filter (·.channel == c)).flatMap (·.text)

/-- The session with one more message. -/
def tell (s : Session) (c : Channel) (t : Text) : Session :=
  { s with messages := s.messages ++ [⟨c, t⟩] }

/-- **Messages come in their order,** each on its own channel. -/
@[simp] theorem said_tell (s : Session) (c other : Channel) (t : Text) :
    (s.tell c t).said other = s.said other ++ (if c = other then t else []) := by
  by_cases h : c = other <;> simp [said, tell, h]

/-- The session with one more notice. -/
def notify (s : Session) (c : Channel) (l : Label) (text : String) : Session :=
  s.tell c (Text.ofString (l.notice text))

/-- The session after a log entry, if its sink keeps it. -/
def log (s : Session) (e : Log.Entry) : Session :=
  let line := s.sink.line [] e
  if line.isEmpty then s else s.tell .remarks (Text.ofString line)

/-- The session with its failure reported. A source that could not be read is reported at
length. -/
def report (s : Session) (f : Failure) : Session :=
  match f with
  | .source d => s.tell .remarks (Text.ofString (d.report.terminal ++ "\n"))
  | f =>
    f.hints.foldl (fun s h => s.notify .remarks .info h) (s.notify .remarks .error f.message)

end Session

/-- Something a run does, which may fail. -/
abbrev Action := ReaderT Surroundings (ExceptT Failure (StateM Session))

namespace Action

/-- Goes on with a result, or fails as it did. -/
def ofExcept {α : Type} (r : Except Failure α) : Action α :=
  match r with
  | .ok a => pure a
  | .error f => throw f

/-- Says a text as it is. -/
def print (t : Text) : Action Unit := modify (·.tell .results t)

/-- Says something under a label. -/
def notify (l : Label) (text : String) : Action Unit := modify (·.notify .results l text)

/-- Logs entries. -/
def log (entries : List Log.Entry) : Action Unit :=
  modify (fun s => entries.foldl Session.log s)

/-- How much is to be said. -/
def verbosity : Action Int := return (← get).sink.verbosity

/-- Changes the file system, and goes on with the outcome or fails as it did. -/
def change {α : Type} (f : Disk → Except Failure α × Disk) : Action α := do
  let (outcome, disk) := f (← get).disk
  modify (fun s => { s with disk := disk })
  ofExcept outcome

end Action

end Exemplar
