/-!
# How much is said

The verbosity of a run is the number of times its user asked for more. It decides two things
apart from each other: from which level on log entries are kept, and which categories of output
are shown at all.
-/

namespace Exemplar.Log

/-- The weight of a log entry. -/
inductive Level where
  | debug
  | info
  | warn
  | error
deriving DecidableEq

namespace Level

/-- The name of a level. -/
def name : Level → String
  | .debug => "debug"
  | .info => "info"
  | .warn => "warn"
  | .error => "error"

/-- The name of a level where it stands out. -/
def capital : Level → String
  | .debug => "DEBUG"
  | .info => "INFO"
  | .warn => "WARN"
  | .error => "ERROR"

/-- The place of a level in their order. -/
def rank : Level → Nat
  | .debug => 0
  | .info => 1
  | .warn => 2
  | .error => 3

/-- The lowest level that is kept at a verbosity. -/
def threshold (verbosity : Int) : Level :=
  if verbosity ≤ 0 then .warn else if verbosity = 1 then .info else .debug

/-- Whether entries of a level are kept at a verbosity. -/
def isKept (level : Level) (verbosity : Int) : Bool := (threshold verbosity).rank ≤ level.rank

end Level

/-- What a verbosity is called. -/
def verbosityName (verbosity : Int) : String :=
  if verbosity = 0 then "User"
  else if verbosity = 1 then "Info (-v)"
  else if verbosity = 2 then "Debug (-vv)"
  else if verbosity = 3 then "Trace (-vvv)"
  else if 3 < verbosity then "Trace (-vvv+)"
  else "Unknown"

/-- The kinds of output a run can show. -/
inductive Category where
  /-- The files that were written, and the ones out of date. -/
  | results
  /-- Failures with their hints. -/
  | errors
  /-- What is being done, unit by unit. -/
  | progress
  /-- A summary of the configuration. -/
  | config
  /-- Declarations without a builder. -/
  | skipped
  /-- How long things took. -/
  | timing
  /-- The declarations themselves. -/
  | declarations
deriving DecidableEq

namespace Category

/-- All categories, in the order of their numbers. -/
def all : List Category :=
  [.results, .errors, .progress, .config, .skipped, .timing, .declarations]

/-- The name of a category. -/
def name : Category → String
  | .results => "results"
  | .errors => "errors"
  | .progress => "progress"
  | .config => "config"
  | .skipped => "skipped"
  | .timing => "timing"
  | .declarations => "declarations"

/-- The verbosity from which a category is shown. -/
def least : Category → Int
  | .results | .errors => 0
  | .progress | .config => 1
  | .skipped | .timing => 2
  | .declarations => 3

/-- Whether a category is shown at a verbosity. -/
def isShown (c : Category) (verbosity : Int) : Bool := c.least ≤ verbosity

/-- The category with a given number. -/
def ofNumber? : Int → Option Category
  | .ofNat n => all[n]?
  | .negSucc _ => none

/-- The name of the category with a given number, if there is one. -/
def nameOfNumber (n : Int) : String := ((ofNumber? n).map name).getD "unknown"

/-- Whether the category with a given number is shown. One that is unknown is shown only to those
who see everything. -/
def numberIsShown (n verbosity : Int) : Bool :=
  match ofNumber? n with
  | some c => c.isShown verbosity
  | none => declarations.least ≤ verbosity

end Category

end Exemplar.Log
