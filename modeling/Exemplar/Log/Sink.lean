import Exemplar.Log.Console
import Exemplar.Log.Structured

/-!
# Where entries go

A sink keeps the entries its verbosity admits and writes them in one of the two forms.
-/

namespace Exemplar.Log

/-- When something is said: the time of day for people, and the time for machines. -/
structure Moment where
  /-- The time of day. -/
  timeOfDay : String
  /-- The time as a number. -/
  number : String

/-- How entries are written. -/
structure Sink where
  /-- Whether they are written for machines. -/
  structured : Bool
  /-- Whether lines for people are coloured. -/
  colour : Bool
  /-- How much is said. -/
  verbosity : Int
  /-- The time at which all of it is said. -/
  moment : Moment

namespace Sink

/-- The line a sink writes for an entry of a logger; nothing for one that is not kept. -/
def line (s : Sink) (context : List Field) (e : Entry) : String :=
  if e.level.isKept s.verbosity then
    if s.structured then Structured.line s.moment.number context e
    else Console.line s.colour s.moment.timeOfDay context e
  else ""

end Sink

end Exemplar.Log
