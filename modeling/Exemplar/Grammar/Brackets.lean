import Exemplar.Grammar.Cursor

/-!
# Brackets, and what is skipped

Bodies, initial values and statements outside the declarations are not parsed. They are skipped
by their brackets: a group reaches from an opening bracket to the closing bracket that matches
it, with nothing but whole groups and other tokens in between.

The scans in the first section work on a list of tokens alone and answer with a number of
tokens, so what a group is can be said and proved without a parser. The parsers in the second
section consume what the scans measure.

Where a statement or an expression without a semicolon ends is decided at line breaks: it goes
on if the token before the break still needs an operand, or if the token behind it cannot start
anything.
-/

namespace Exemplar

namespace Brackets

/-! ## Measuring -/

/-- What scanning for the end of open groups found. -/
inductive Scan where
  /-- All groups are closed after so many tokens. -/
  | closed (length : Nat)
  /-- After so many tokens comes a closing bracket that does not match. -/
  | mismatch (length : Nat)
  /-- The tokens end while a group that needs the given bracket is open. -/
  | unclosed (closer : Text)
deriving DecidableEq

/-- A scan with one more token in front. -/
def Scan.next : Scan → Scan
  | .closed n => .closed (n + 1)
  | .mismatch n => .mismatch (n + 1)
  | .unclosed c => .unclosed c

/-- Scans for the end of the open groups, of which `top` is the bracket that closes the innermost
and `outer` are those that close the others. -/
def scan (top : Text) (outer : List Text) : List Token → Scan
  | [] => .unclosed top
  | t :: rest =>
    if t.isOpener then (scan t.closer (top :: outer) rest).next
    else if t.isCloser then
      if t.text == top then
        match outer with
        | [] => .closed 1
        | top' :: outer' => (scan top' outer' rest).next
      else .mismatch 0
    else (scan top outer rest).next

/-- The group that starts with the first token, if there is one. A token that is no bracket is
taken for a group of its own. -/
def scanGroup? : List Token → Option Scan
  | [] => none
  | t :: rest =>
    some (if t.isOpener then (scan t.closer [] rest).next
      else if t.isCloser then .mismatch 0
      else .closed 1)

/-- The place of the closing bracket that brings the number of open brackets, `depth` at the
beginning, back to zero. Which closing bracket belongs to which opening one is not asked. -/
def matching (depth : Nat) : List Token → Option Nat
  | [] => none
  | t :: rest =>
    if t.isOpener then (matching (depth + 1) rest).map (· + 1)
    else if t.isCloser then
      if depth ≤ 1 then some 0 else (matching (depth - 1) rest).map (· + 1)
    else (matching depth rest).map (· + 1)

/-- What looking for a closing angle bracket found. -/
inductive AngleScan where
  /-- It stands so many tokens behind the first one. -/
  | found (index : Nat)
  /-- A semicolon or the end of an enclosing group comes first. -/
  | blocked
  /-- The tokens end first. -/
  | ranOut
deriving DecidableEq

/-- An angle scan with one more token in front. -/
def AngleScan.next : AngleScan → AngleScan
  | .found n => .found (n + 1)
  | .blocked => .blocked
  | .ranOut => .ranOut

/-- Looks for the `>` that brings the number of open angle brackets, `angles` at the beginning,
back to zero, with `groups` other groups open. -/
def matchingAngle (angles groups : Nat) : List Token → AngleScan
  | [] => .ranOut
  | t :: rest =>
    if t.is ";" then .blocked
    else if t.isOpener then (matchingAngle angles (groups + 1) rest).next
    else if t.isCloser then
      match groups with
      | 0 => .blocked
      | g + 1 => (matchingAngle angles g rest).next
    else if t.is "<" then (matchingAngle (angles + 1) groups rest).next
    else if t.is ">" then
      if angles ≤ 1 then .found 0 else (matchingAngle (angles - 1) groups rest).next
    else (matchingAngle angles groups rest).next

/-- Punctuators that can start neither a statement nor a member: a line break before one of them
ends nothing. -/
def continuations : List String :=
  [".", "?.", "?", ":", "=>", "=", "&&", "||", "??", "==", "===", "!=",
    "!==", "*", "/", "%", "|",
   "&", "^", ">", "<=", "**"]

/-- Whether an expression goes on across a line break between two tokens. -/
def continuesAcross (last : Option Token) (next : Token) : Bool :=
  last.any (fun t => t.kind == .punct && !t.isCloser)
    || (next.kind == .punct && continuations.any (fun w => next.text == Text.ofString w))

end Brackets

namespace Parser

open Brackets

/-! ## Skipping -/

/-- The place of the bracket that closes the group at the current token, if there is one. -/
def closingBracket : Parser (Option Nat) := do
  match matching 0 (← get).rest with
  | some i => return some i
  | none => reachEnd; return none

/-- The place of the `>` that closes the `<` at the current token, if there is one. -/
def closingAngle : Parser (Option Nat) := do
  match matchingAngle 0 0 (← get).rest with
  | .found i => return some i
  | .blocked => return none
  | .ranOut => reachEnd; return none

/-- Consumes the group that starts with the current token. At the end of the source no bracket is
open whose closing one could be missed. -/
def skipGroup : Parser Unit := do
  match scanGroup? (← get).rest with
  | none => throw (.crash .noOpenBracket)
  | some (.closed n) => advanceBy n
  | some (.mismatch n) =>
    advanceBy n
    fail (.unbalanced (← current).text)
  | some (.unclosed closer) =>
    advanceBy (← get).rest.length
    fail (.unclosed closer)

/-- Consumes a list of type arguments if a call follows it, and otherwise only its first
token. -/
def skipTypeArguments : Parser Unit := do
  match ← closingAngle with
  | some i => if (← peek (i + 1)).is "(" then advanceBy (i + 1) else advanceBy 1
  | none => advanceBy 1

/-- Whether the current token is on a new line and does not continue what stands before it. -/
def atBreak : Parser Bool := do
  let c ← get
  return c.current.newlineBefore && !continuesAcross c.last c.current

/-- Consumes the next piece of a statement, `first` telling whether it is the first one. The
statement ends behind a semicolon, and before a closing bracket or a line break that ends it. -/
def statementRound (first : Bool) : Parser (Option Bool) := do
  let t ← current
  if t.isEof then return none
  else if !first && (← atBreak) then return none
  else if t.is ";" then
    let _ ← advance
    return none
  else if t.isOpener then
    skipGroup
    return some false
  else if t.isCloser && !first then return none
  else
    let _ ← advance
    return some false

/-- Consumes a statement up to and including its semicolon, or up to the line break that ends it.
The first token is consumed even if it is a closing bracket. -/
def skipStatement : Parser Unit := do
  let _ ← iterate statementRound true

/-- Consumes the next piece of an expression, `first` telling whether it is the first one. The
expression ends before a comma, a semicolon or a closing bracket, and at a line break that ends
it. -/
def expressionRound (first : Bool) : Parser (Option Bool) := do
  let t ← current
  if t.isEof then return none
  else if !first && (← atBreak) then return none
  else if t.is "," || t.is ";" || t.isCloser then return none
  else if t.isOpener then
    skipGroup
    return some false
  else if t.is "<" then
    skipTypeArguments
    return some false
  else
    let _ ← advance
    return some false

/-- Consumes an expression, which may turn out to be empty. -/
def skipExpression : Parser Unit := do
  let _ ← iterate expressionRound true

end Parser

end Exemplar
