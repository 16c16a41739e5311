import Exemplar.Text.Quoted

/-!
# Mistakes on the command line

Each way in which a command line cannot be understood, with what a message needs to know.
-/

namespace Exemplar

/-- A mistake on the command line. -/
inductive UsageError where
  /-- No flag has the given name. -/
  | unknownFlag (name : String)
  /-- No flag has the letter a cluster of letters starts with. -/
  | unknownLetter (cluster : String)
  /-- An argument looks like a flag without a name. -/
  | malformedFlag (argument : String)
  /-- The flag of the last argument wants a value. -/
  | missingValue (argument : String)
  /-- The last letter of a cluster is that of a flag that wants a value. -/
  | missingLetterValue (cluster : String)
  /-- A value is not what a flag takes. -/
  | unfitValue (value flag reason : String)
  /-- A command has no command of the given name; similar names it has. -/
  | unknownCommand (name parent : String) (similar : List String)
  /-- There are fewer arguments than a command needs. -/
  | tooFewArguments (least given : Nat)
deriving DecidableEq

namespace UsageError

/-- How the letter a cluster starts with is shown: by its first byte, read as a code point. -/
def leadingLetter (cluster : String) : String :=
  match (Text.ofString cluster).encode with
  | b :: _ => Text.quotedChar (Char.ofNat b.toNat)
  | [] => ""

/-- Names that might have been meant. -/
def suggestion : List String → String
  | [] => ""
  | names => "\n\nDid you mean this?\n" ++ String.join (names.map (fun n => "\t" ++ n ++ "\n"))

/-- What a mistake is called. -/
def message : UsageError → String
  | .unknownFlag name => "unknown flag: --" ++ name
  | .unknownLetter cluster =>
    "unknown shorthand flag: " ++ leadingLetter cluster ++ " in -" ++ cluster
  | .malformedFlag argument => "bad flag syntax: " ++ argument
  | .missingValue argument => "flag needs an argument: " ++ argument
  | .missingLetterValue cluster =>
    "flag needs an argument: " ++ leadingLetter cluster ++ " in -" ++ cluster
  | .unfitValue value flag reason =>
    "invalid argument " ++ quotedString value ++ " for " ++
      quotedString flag ++ " flag: " ++ reason
  | .unknownCommand name parent similar =>
    "unknown command " ++ quotedString name ++ " for " ++
      quotedString parent ++ suggestion similar
  | .tooFewArguments least given =>
    s!"requires at least {least} arg(s), only received {given}"

end UsageError

end Exemplar
