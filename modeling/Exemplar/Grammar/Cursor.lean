import Exemplar.Token.Stream

/-!
# Reading tokens

A parser walks the tokens of a source once, from left to right, and may look ahead as far as it
likes. It stops at the first complaint. `Cursor` is the place it has reached: the tokens still to
come, how they end, and what was consumed last, which is where the span of a finished node stops.

A literal or comment left open is not a complaint of the grammar, and it is not one of the
tokens either. It stands behind the last token, and a parser that consumes or looks past that
token stops there with the fault. So a parser never sees more of the source than it has asked
for, and a complaint about an earlier token comes before a fault further on.

Loops are bounded by the number of tokens ahead. A loop that consumes a token in every round
cannot use up that bound; one that does not would be reported as `Halt.exhausted`, which keeps
the definitions total without hiding anything.
-/

namespace Exemplar

/-- What the grammar can complain about. -/
inductive Complaint where
  /-- A given word or punctuator should stand here. -/
  | expected (text : String)
  /-- A given closing bracket should stand here. -/
  | unclosed (closer : Text)
  /-- A closing bracket matches no open one. -/
  | unbalanced (closer : Text)
  /-- A type should stand here. -/
  | typeExpected
  /-- An identifier should stand here. -/
  | identifierExpected
  /-- The key of a member should stand here. -/
  | propertyNameExpected
  /-- A parameter should stand here. -/
  | parameterNameExpected
  /-- The key of an enumeration's member should stand here. -/
  | enumMemberNameExpected
  /-- A type should be followed by nothing. -/
  | trailingToken
deriving DecidableEq

/-- The wording of a complaint. -/
def Complaint.message : Complaint → String
  | .expected text => "'" ++ text ++ "' expected"
  | .unclosed closer => "'" ++ closer.toString ++ "' expected"
  | .unbalanced closer => "unbalanced '" ++ closer.toString ++ "'"
  | .typeExpected => "type expected"
  | .identifierExpected => "identifier expected"
  | .propertyNameExpected => "property name expected"
  | .parameterNameExpected => "parameter name expected"
  | .enumMemberNameExpected => "enum member name expected"
  | .trailingToken => "unexpected token after type"

/-- Steps that have no result everywhere. A parser that takes one of them where it has none
breaks down: this is no complaint about the source. -/
inductive Crash where
  /-- The innermost open bracket is asked for, but none is open. -/
  | noOpenBracket
  /-- A token is asked for by its place, but it is not among those looked ahead at. -/
  | noSuchToken
  /-- A piece of the source is asked for, but it would end before it starts or behind the
  source. -/
  | noSuchSlice
deriving DecidableEq

/-- Why a parser stops without a result. -/
inductive Halt where
  /-- Something is left open in the source. -/
  | lexical (fault : LexicalFault) (range : Option Span)
  /-- The grammar does not accept a token. -/
  | unexpected (complaint : Complaint) (found : Token)
  /-- The parser breaks down. -/
  | crash (cause : Crash)
  /-- A loop went on without consuming anything. -/
  | exhausted
deriving DecidableEq

/-- The place a parser has reached. -/
structure Cursor where
  /-- The whole source. -/
  source : Text
  /-- The tokens still to come, the current one first. -/
  rest : List Token
  /-- How the tokens end. -/
  ending : Ending
  /-- The token consumed last. -/
  last : Option Token
  /-- Where the token consumed last stops. -/
  lastStop : Position

/-- The current token: the end of the source when no token is left. -/
def Cursor.current (c : Cursor) : Token := c.rest.head?.getD c.ending.token

/-- A computation that reads tokens. -/
abbrev Parser (α : Type) := StateT Cursor (Except Halt) α

namespace Parser

variable {α σ : Type}

/-! ## Looking and consuming -/

/-- The current token. -/
def current : Parser Token := do return (← get).current

/-- Stops if the tokens end in something left open. -/
def reachEnd : Parser Unit := do
  let c ← get
  match c.ending.fault with
  | some fault => throw (.lexical fault c.ending.range?)
  | none => return ()

/-- The token `n` places behind the current one, which itself is not looked ahead at. -/
def peek : Nat → Parser Token
  | 0 => throw (.crash .noSuchToken)
  | n + 1 => do
    let c ← get
    match c.rest[n + 1]? with
    | some t => return t
    | none => reachEnd; return c.ending.token

/-- Consumes the current token and answers it. The end of the source cannot be consumed. -/
def advance : Parser Token := do
  let c ← get
  match c.rest with
  | [] => return c.ending.token
  | t :: more =>
    set { c with rest := more, last := some t, lastStop := t.stop }
    if more.isEmpty then reachEnd
    return t

/-- Consumes `n` tokens. -/
def advanceBy : Nat → Parser Unit
  | 0 => return ()
  | n + 1 => do
    let _ ← advance
    advanceBy n

/-- Stops with a complaint about the current token. -/
def fail (complaint : Complaint) : Parser α := do
  throw (.unexpected complaint (← current))

/-- Whether the current token is the given word or punctuator. -/
def is (word : String) : Parser Bool := do return (← current).is word

/-- Whether the current token is an identifier or keyword. -/
def isIdent : Parser Bool := do return (← current).isIdent

/-- Whether no token is left. -/
def isEof : Parser Bool := do return (← current).isEof

/-- Consumes the given word or punctuator if it is the current token. -/
def got (word : String) : Parser Bool := do
  if ← is word then
    let _ ← advance
    return true
  else return false

/-- Consumes the given word or punctuator and complains if another token stands there. -/
def expect (word : String) : Parser Unit := do
  if ← is word then
    let _ ← advance
  else fail (.expected word)

/-- Whether the current token and the one behind it pass a test each. The second is looked at
only if the first passes. -/
def ahead (first second : Token → Bool) : Parser Bool := do
  if first (← current) then return second (← peek 1) else return false

/-- Whether the current token and the two behind it pass a test each, looked at in that order as
long as they do. -/
def ahead₃ (first second third : Token → Bool) : Parser Bool := do
  if ← ahead first second then return third (← peek 2) else return false

/-- Where the current token starts. -/
def here : Parser Position := do return (← current).start

/-- The span from a place to the end of the token consumed last. -/
def spanFrom (start : Position) : Parser Span := do return ⟨start, (← get).lastStop⟩

/-! ## Loops -/

/-- Runs `next` until it answers `none`, at most `fuel` times, and lists the answers. -/
def collectUpTo (next : Parser (Option α)) : Nat → Parser (List α)
  | 0 => throw .exhausted
  | fuel + 1 => do
    match ← next with
    | none => return []
    | some a => return a :: (← collectUpTo next fuel)

/-- Runs `next` until it answers `none` and lists the answers. -/
def collect (next : Parser (Option α)) : Parser (List α) := do
  collectUpTo next ((← get).rest.length + 1)

/-- Runs `step` on a state until it answers `none`, at most `fuel` times, and answers the last
state. -/
def iterateUpTo (step : σ → Parser (Option σ)) : Nat → σ → Parser σ
  | 0, _ => throw .exhausted
  | fuel + 1, s => do
    match ← step s with
    | none => return s
    | some s' => iterateUpTo step fuel s'

/-- Runs `step` on a state until it answers `none` and answers the last state. -/
def iterate (step : σ → Parser (Option σ)) (s : σ) : Parser σ := do
  iterateUpTo step ((← get).rest.length + 1) s

/-- Runs `body` if `test` holds. -/
def onceMore (test : Parser Bool) (body : Parser Unit) : Parser (Option Unit) := do
  if ← test then body; return some () else return none

/-- Repeats `body` while `test` holds. -/
def whileDo (test : Parser Bool) (body : Parser Unit) : Parser Unit := do
  let _ ← collect (onceMore test body)

/-- An item behind a separator, if the separator is there. -/
def itemBehind (separator : String) (item : Parser α) : Parser (Option α) := do
  if ← got separator then return some (← item) else return none

/-- One or more items with commas between them. -/
def commaList₁ (item : Parser α) : Parser (List α) := do
  let first ← item
  let more ← collect (itemBehind "," item)
  return first :: more

/-- An item behind a comma, unless there is no comma or a closing punctuator follows it. -/
def itemBefore (closer : String) (item : Parser α) : Parser (Option α) := do
  if ← got "," then
    if ← is closer then return none else return some (← item)
  else return none

/-- Items with commas between them, up to a closing punctuator. A comma before it is allowed, and
the punctuator itself is not consumed. -/
def commaList (closer : String) (item : Parser α) : Parser (List α) := do
  if ← is closer then return []
  let first ← item
  let more ← collect (itemBefore closer item)
  return first :: more

/-! ## Running -/

/-- Runs a parser on a source from its first token. -/
def run (p : Parser α) (source : Text) : Except Halt α := do
  let stream := TokenStream.lex source
  let start : Cursor := ⟨source, stream.tokens, stream.ending, none, .unset⟩
  let program : Parser α := do
    if stream.tokens.isEmpty then reachEnd
    p
  return (← StateT.run program start).1

end Parser

end Exemplar
