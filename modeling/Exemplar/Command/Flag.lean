import Exemplar.Command.Usage
import Exemplar.Text.Lines
import Exemplar.Text.Numeral

/-!
# Flags

A flag has a name, behind two dashes, and may have a letter, behind one dash, where several
letters can stand together. A flag that takes a text or a number wants a value: the rest of its
argument, or else the next argument. A switch and a tally go without one and take it only behind
an equals sign.

Arguments are read from left to right. Flags and other arguments may be mixed, and behind `--`
all arguments are other arguments. The first mistake ends the reading.
-/

namespace Exemplar

/-- What a flag takes. -/
inductive FlagKind where
  /-- A text. -/
  | text
  /-- A whole number. -/
  | number
  /-- A truth value, true if the flag goes without one. -/
  | switch
  /-- A count of how often the flag was given. -/
  | tally
deriving DecidableEq

/-- A flag. -/
structure Flag where
  /-- Its name. -/
  name : String
  /-- Its letter, if it has one. -/
  letter : Option Char
  /-- What it takes. -/
  kind : FlagKind
deriving DecidableEq

/-- The value a flag was given. -/
inductive FlagValue where
  /-- A text. -/
  | text (s : String)
  /-- A whole number. -/
  | number (n : Int)
  /-- A truth value. -/
  | switch (on : Bool)
  /-- One more. -/
  | oneMore
deriving DecidableEq

namespace FlagKind

/-- The value of a flag that goes without one; none for a kind that wants one. -/
def implied? : FlagKind → Option FlagValue
  | .text | .number => none
  | .switch => some (.switch true)
  | .tally => some .oneMore

/-- What is wrong with a text that should be a number. -/
def numberReason (s : String) (e : Text.NumeralError) : String :=
  "strconv.ParseInt: parsing " ++ quotedString s ++ ": " ++ e.text

/-- What is wrong with a text that should be a truth value. -/
def truthReason (s : String) : String :=
  "strconv.ParseBool: parsing " ++ quotedString s ++ ": invalid syntax"

/-- The value a text stands for, or what is wrong with it. -/
def read (kind : FlagKind) (s : String) : Except String FlagValue :=
  match kind with
  | .text => .ok (.text s)
  | .number => numberValue
  | .switch =>
    match Text.truth? s with
    | some b => .ok (.switch b)
    | none => .error (truthReason s)
  | .tally => if s == "+1" then .ok .oneMore else numberValue
where
  /-- The number a text stands for. -/
  numberValue : Except String FlagValue :=
    match Text.wholeNumber s with
    | .ok n => .ok (.number n)
    | .error e => .error (numberReason s e)

end FlagKind

namespace Flag

/-- How a flag is shown in a message. -/
def shown (f : Flag) : String :=
  match f.letter with
  | some c => "-" ++ String.ofList [c] ++ ", --" ++ f.name
  | none => "--" ++ f.name

/-- Whether a flag wants a value. -/
def wantsValue (f : Flag) : Bool := f.kind.implied?.isNone

/-- The value a text stands for. -/
def read (f : Flag) (s : String) : Except UsageError FlagValue :=
  match f.kind.read s with
  | .ok v => .ok v
  | .error reason => .error (.unfitValue s f.shown reason)

end Flag

/-- Arguments after they were read. -/
structure Arguments where
  /-- The flags that were given, each by its name, the last one first. -/
  flags : List (String × FlagValue)
  /-- The other arguments, in their order. -/
  others : List String

namespace Arguments

/-- No arguments. -/
def empty : Arguments := ⟨[], []⟩

/-- The text of a flag, if it was given. -/
def text? (a : Arguments) (name : String) : Option String :=
  match a.flags.lookup name with
  | some (.text s) => some s
  | _ => none

/-- The number of a flag, if it was given. -/
def number? (a : Arguments) (name : String) : Option Int :=
  match a.flags.lookup name with
  | some (.number n) => some n
  | _ => none

/-- Whether a switch is on. -/
def isOn (a : Arguments) (name : String) : Bool := a.flags.lookup name == some (.switch true)

/-- The count of a tally: each mention adds one, and a number starts it anew. -/
def tally (a : Arguments) (name : String) : Int :=
  a.flags.foldr (fun e n =>
    if e.1 == name then
      match e.2 with
      | .oneMore => n + 1
      | .number m => m
      | _ => n
    else n) 0

/-- The arguments with one more flag. -/
def give (a : Arguments) (f : Flag) (v : FlagValue) : Arguments :=
  { a with flags := (f.name, v) :: a.flags }

end Arguments

namespace Flag

/-- The flag of a given name. -/
def named? (flags : List Flag) (name : String) : Option Flag := flags.find? (·.name == name)

/-- The flag of a given letter. -/
def ofLetter? (flags : List Flag) (c : Char) : Option Flag := flags.find? (·.letter == some c)

/-- Reads an argument behind its two dashes, and the next arguments as far as its flag wants
them. -/
def readNamed (flags : List Flag) (body : List Char) (rest : List String) (a : Arguments) :
    Except UsageError (Arguments × List String) := do
  let argument := "--" ++ String.ofList body
  if body.head? == some '-' || body.head? == some '=' then throw (.malformedFlag argument)
  let name := String.ofList (body.takeWhile (· != '='))
  match named? flags name with
  | none => throw (.unknownFlag name)
  | some f =>
    match body.dropWhile (· != '='), f.kind.implied?, rest with
    | _ :: value, _, _ => return (a.give f (← f.read (String.ofList value)), rest)
    | [], some v, _ => return (a.give f v, rest)
    | [], none, value :: more => return (a.give f (← f.read value), more)
    | [], none, [] => throw (.missingValue argument)

/-- Reads a cluster of letters, and the next arguments as far as the last of its flags wants
them. -/
def readLetters (flags : List Flag) (rest : List String) :
    List Char → Arguments → Except UsageError (Arguments × List String)
  | [], a => .ok (a, rest)
  | c :: more, a =>
    match ofLetter? flags c with
    | none => .error (.unknownLetter (String.ofList (c :: more)))
    | some f =>
      match more, f.kind.implied?, rest with
      | '=' :: v :: value, _, _ =>
        (f.read (String.ofList (v :: value))).map (fun v => (a.give f v, rest))
      | more, some v, _ => readLetters flags rest more (a.give f v)
      | m :: more, none, _ =>
        (f.read (String.ofList (m :: more))).map (fun v => (a.give f v, rest))
      | [], none, value :: next => (f.read value).map (fun v => (a.give f v, next))
      | [], none, [] => .error (.missingLetterValue (String.ofList [c]))

/-- Reads arguments, one flag or other argument at a time. At most `fuel` of them. -/
def readUpTo (flags : List Flag) :
    Nat → List String → Arguments → Except UsageError Arguments
  | 0, _, a => .ok a
  | _, [], a => .ok a
  | fuel + 1, argument :: rest, a =>
    match argument.toList with
    | ['-', '-'] => .ok { a with others := a.others ++ rest }
    | '-' :: '-' :: body => do
      let (a, next) ← readNamed flags body rest a
      readUpTo flags fuel next a
    | '-' :: c :: cluster => do
      let (a, next) ← readLetters flags rest (c :: cluster) a
      readUpTo flags fuel next a
    | _ => readUpTo flags fuel rest { a with others := a.others ++ [argument] }

end Flag

/-- Reads arguments for a command with the given flags. Every step takes at least one of them. -/
def Arguments.read (flags : List Flag) (args : List String) : Except UsageError Arguments :=
  Flag.readUpTo flags args.length args .empty

end Exemplar
