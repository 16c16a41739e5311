/-!
# Causes of failure

A failure is told from the inside out: something went wrong, a caller says what it was doing, and
somebody adds a hint for the user or a detail for the log. `Cause` is that chain of layers. Three
causes are known by name, and whoever handles a failure asks whether one of them is at the bottom
of it.

The message of a chain joins what its layers say. Hints and details are collected innermost
first; a hint that was given before is not repeated.
-/

namespace Exemplar

/-- The causes that are known by name. -/
inductive KnownCause where
  /-- A unit could not be read. -/
  | unresolvedUnit
  /-- A configuration value was refused. -/
  | invalidConfig
  /-- The generated files are not what would be generated now. -/
  | staleOutput
deriving DecidableEq

/-- What a known cause says. -/
def KnownCause.text : KnownCause → String
  | .unresolvedUnit => "unresolved compilation unit"
  | .invalidConfig => "invalid configuration"
  | .staleOutput => "generated output is out of date"

/-- A failure with everything that was added on the way out. -/
inductive Cause where
  /-- Something went wrong. -/
  | plain (text : String)
  /-- A known cause. -/
  | known (cause : KnownCause)
  /-- Something that was thought impossible. -/
  | assertion (text : String)
  /-- What remains of a failure when everything added to it is taken away: only its text. -/
  | bare (text : String)
  /-- What was being done. -/
  | wrapped (context : String) (inner : Cause)
  /-- Something the user can do. -/
  | hinted (hint : String) (inner : Cause)
  /-- Something for the log. -/
  | detailed (detail : String) (inner : Cause)
deriving DecidableEq

namespace Cause

/-- The hint that comes with something thought impossible. -/
def assertionHint : String :=
  "You have encountered an unexpected error.\n\nPlease check the public issue tracker to check whether this problem is\nalready tracked. If you cannot find it there, please report the error\nwith details by creating a new issue.\n\nIf you would rather not post publicly, please contact us directly\nusing the support form.\n\nWe appreciate your feedback.\n"

/-- The text at the bottom of a chain. -/
def root : Cause → String
  | .plain text | .assertion text | .bare text => text
  | .known cause => cause.text
  | .wrapped _ inner | .hinted _ inner | .detailed _ inner => inner.root

/-- The message of a chain. A layer that says nothing adds nothing. -/
def message : Cause → String
  | .plain text | .assertion text | .bare text => text
  | .known cause => cause.text
  | .wrapped context inner =>
    if context.isEmpty then inner.message else context ++ ": " ++ inner.message
  | .hinted _ inner | .detailed _ inner => inner.message

/-- Whether a known cause is at the bottom of a chain. A failure counts as a known cause if it
says the same; one that has been taken out of its chain does not. -/
def has (k : KnownCause) : Cause → Bool
  | .plain text | .assertion text => text == k.text
  | .known cause => cause == k
  | .bare _ => false
  | .wrapped _ inner | .hinted _ inner | .detailed _ inner => inner.has k

/-- Whether a failure is something thought impossible, with nothing added to it. -/
def isAssertion : Cause → Bool
  | .assertion _ => true
  | _ => false

/-- Adds a hint to those collected, unless it is empty or among them. -/
def addHint (hints : List String) (hint : String) : List String :=
  if hint.isEmpty || hints.contains hint then hints else hints ++ [hint]

/-- The hints of a chain, innermost first, each once. -/
def hints : Cause → List String
  | .plain _ | .known _ | .bare _ => []
  | .assertion _ => [assertionHint]
  | .wrapped _ inner | .detailed _ inner => inner.hints
  | .hinted hint inner => addHint inner.hints hint

/-- The hints of a chain as one text. -/
def flatHints (c : Cause) : String := "\n--\n".intercalate c.hints

/-- The details of a chain, innermost first. -/
def details : Cause → List String
  | .plain _ | .known _ | .bare _ | .assertion _ => []
  | .wrapped _ inner | .hinted _ inner => inner.details
  | .detailed detail inner => inner.details ++ [detail]

/-- A unit that could not be read, with the message of the reason. -/
def unresolvedUnit (unit reason : String) : Cause :=
  .wrapped ("unit " ++ unit) (.wrapped reason (.known .unresolvedUnit))

/-- A configuration value that was refused. -/
def invalidConfig (text : String) : Cause := .wrapped text (.known .invalidConfig)

/-- What is left when everything added to a failure is taken away. -/
def unwrapped (c : Cause) : Cause := .bare c.root

end Cause

end Exemplar
