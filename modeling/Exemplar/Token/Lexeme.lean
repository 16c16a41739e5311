import Exemplar.Text.Identifier
import Exemplar.Token.Basic

/-!
# Lexemes

How far the token at the beginning of a text reaches. Each scan below walks the glyphs once and
answers with a number of glyphs, so the text of a token is a `take` and what follows it is a
`drop`: nothing is copied and nothing can be lost.

Literals that are delimited may fail to end. Their scans answer with an `Extent`, which keeps the
reach in both cases and names what was left open. A template literal is one token together with
everything in its substitutions; since templates, substitutions and strings nest in each other,
its scan keeps the stack of what is open.
-/

namespace Exemplar

/-- What can be left open at the end of a source or a line. -/
inductive LexicalFault where
  /-- A block comment without its end. -/
  | comment
  /-- A string literal without its closing quote on the line. -/
  | string
  /-- A template literal without its closing quote. -/
  | template
  /-- A template substitution without its closing brace. -/
  | substitution
  /-- A regular expression literal without its closing slash on the line. -/
  | regex
deriving DecidableEq

/-- What a message says about something left open. -/
def LexicalFault.message : LexicalFault → String
  | .comment => "unterminated block comment"
  | .string => "unterminated string literal"
  | .template => "unterminated template literal"
  | .substitution => "unterminated template substitution"
  | .regex => "unterminated regular expression literal"

/-- How far a delimited literal reaches. -/
inductive Extent where
  /-- It ends after so many glyphs. -/
  | closed (length : Nat)
  /-- After so many glyphs it turns out not to end. -/
  | broken (length : Nat) (fault : LexicalFault)
deriving DecidableEq

/-- An extent with `n` more glyphs in front. -/
def Extent.extend (n : Nat) : Extent → Extent
  | .closed m => .closed (n + m)
  | .broken m f => .broken (n + m) f

namespace Lexeme

/-! ## Identifiers and numbers -/

/-- Where the scan of an identifier stands with respect to an escape such as `\u0041` or
`\u{41}`. -/
inductive NameMode where
  /-- Outside an escape. -/
  | plain
  /-- Right behind the backslash. -/
  | escaped
  /-- Behind the letter of the escape. -/
  | opened
  /-- In an escape that takes so many more glyphs, whatever they are. -/
  | digits (left : Nat)
  /-- In an escape that goes on to the closing brace. -/
  | braced
deriving DecidableEq

/-- The number of glyphs that belong to an identifier, its first glyph not being asked for more
than any other. -/
def nameLength : NameMode → Text → Nat
  | _, [] => 0
  | .plain, g :: rest =>
    if g.is '\\' then 1 + nameLength .escaped rest
    else if Text.Identifier.isContinue g.toChar then 1 + nameLength .plain rest
    else 0
  | .escaped, _ :: rest => 1 + nameLength .opened rest
  | .opened, g :: rest =>
    if g.is '\x7b' then 1 + nameLength .braced rest
    else 1 + nameLength (.digits 3) rest
  | .digits (k + 1), _ :: rest => 1 + nameLength (.digits k) rest
  | .digits 0, g :: rest =>
    if g.is '\\' then 1 + nameLength .escaped rest
    else if Text.Identifier.isContinue g.toChar then 1 + nameLength .plain rest
    else 0
  | .braced, g :: rest =>
    if g.is '\x7d' then 1 + nameLength .plain rest
    else 1 + nameLength .braced rest

/-- Whether the text behind a glyph starts with one of two characters. -/
def startsWith (t : Text) (a b : Char) : Bool :=
  match t with
  | g :: _ => g.is a || g.is b
  | [] => false

/-- The number of glyphs that belong to a number. A number takes every glyph of an identifier
and every point that is not the first of two; a sign belongs to it behind the `e` of an
exponent, which hexadecimal numbers do not have. -/
def numberLength (hexadecimal : Bool) : Text → Nat
  | [] => 0
  | g :: rest =>
    if !(Text.Identifier.isContinue g.toChar || g.is '.') then 0
    else if g.is '.' && startsWith rest '.' '.' then 0
    else if (g.is 'e' || g.is 'E') && !hexadecimal && startsWith rest '+' '-' then
      match rest with
      | _ :: rest' => 2 + numberLength hexadecimal rest'
      | [] => 1
    else 1 + numberLength hexadecimal rest

/-- Whether a number is written in hexadecimal digits. -/
def isHexadecimal (t : Text) : Bool :=
  (Text.ofString "0x").isPrefixOf t || (Text.ofString "0X").isPrefixOf t

/-! ## Delimited literals -/

/-- The extent of a string literal behind its opening quote. A backslash takes the next glyph
with it, even the end of a line. -/
def stringExtent (quote : Char) : Text → Extent
  | [] => .broken 0 .string
  | g :: rest =>
    if g.is quote then .closed 1
    else if g.is '\n' then .broken 0 .string
    else if g.is '\\' then
      match rest with
      | _ :: rest' => (stringExtent quote rest').extend 2
      | [] => .broken 1 .string
    else (stringExtent quote rest).extend 1

/-- Something open inside a template literal. -/
inductive Open where
  /-- A template literal. -/
  | template
  /-- A substitution, with the number of braces open inside it. -/
  | substitution (braces : Nat)
  /-- A string literal with its quote. -/
  | string (quote : Char)
deriving DecidableEq

/-- The extent of a template literal behind its opening quote, given what is open, innermost
first. The literal ends when nothing is open any more. -/
def templateExtent : List Open → Text → Extent
  | [], _ => .closed 0
  | .template :: _, [] => .broken 0 .template
  | .substitution _ :: _, [] => .broken 0 .substitution
  | .string _ :: _, [] => .broken 0 .string
  | .template :: outer, g :: rest =>
    if g.is '\x60' then (templateExtent outer rest).extend 1
    else if g.is '\\' then
      match rest with
      | _ :: rest' => (templateExtent (.template :: outer) rest').extend 2
      | [] => .broken 1 .template
    else if g.is '$' then
      match rest with
      | h :: rest' =>
        if h.is '\x7b' then
          (templateExtent (.substitution 0 :: .template :: outer) rest').extend 2
        else (templateExtent (.template :: outer) (h :: rest')).extend 1
      | [] => .broken 1 .template
    else (templateExtent (.template :: outer) rest).extend 1
  | .substitution braces :: outer, g :: rest =>
    if g.is '\x7b' then (templateExtent (.substitution (braces + 1) :: outer) rest).extend 1
    else if g.is '\x7d' then
      match braces with
      | 0 => (templateExtent outer rest).extend 1
      | k + 1 => (templateExtent (.substitution k :: outer) rest).extend 1
    else if g.is '"' then
      (templateExtent (.string '"' :: .substitution braces :: outer) rest).extend 1
    else if g.is '\'' then
      (templateExtent (.string '\'' :: .substitution braces :: outer) rest).extend 1
    else if g.is '\x60' then
      (templateExtent (.template :: .substitution braces :: outer) rest).extend 1
    else (templateExtent (.substitution braces :: outer) rest).extend 1
  | .string quote :: outer, g :: rest =>
    if g.is quote then (templateExtent outer rest).extend 1
    else if g.is '\n' then .broken 0 .string
    else if g.is '\\' then
      match rest with
      | _ :: rest' => (templateExtent (.string quote :: outer) rest').extend 2
      | [] => .broken 1 .string
    else (templateExtent (.string quote :: outer) rest).extend 1

/-- The number of glyphs at the beginning of a text that may be flags of a regular expression. -/
def flagLength (t : Text) : Nat :=
  (t.takeWhile (fun g => Text.Identifier.isContinue g.toChar)).length

/-- The extent of a regular expression literal behind its opening slash. A slash inside a
character class does not end it; the flags behind the closing slash belong to it. -/
def regexExtent (inClass : Bool) : Text → Extent
  | [] => .broken 0 .regex
  | g :: rest =>
    if g.is '\n' then .broken 0 .regex
    else if g.is '\\' then
      match rest with
      | _ :: rest' => (regexExtent inClass rest').extend 2
      | [] => .broken 1 .regex
    else if g.is '[' then (regexExtent true rest).extend 1
    else if g.is ']' then (regexExtent false rest).extend 1
    else if g.is '/' && !inClass then .closed (1 + flagLength rest)
    else (regexExtent inClass rest).extend 1

/-! ## Punctuators -/

/-- The punctuators of more than one character, longer ones first. There is none that starts with
`>`: a list of type arguments closes one bracket at a time. -/
def punctuators : List String :=
  ["...", "===", "!==", "**=", "&&=", "||=", "??=",
   "=>", "==", "!=", "<=", "&&", "||", "??", "?.", "++", "--",
   "+=", "-=", "*=", "/=", "%=", "&=", "|=", "^=", "**"]

/-- The number of glyphs of the punctuator at the beginning of a text: one, unless a longer
punctuator stands there. -/
def punctuatorLength (t : Text) : Nat :=
  match punctuators.find? (fun p => (Text.ofString p).isPrefixOf t) with
  | some p => p.length
  | none => 1

/-- The words and punctuators after which a slash starts a regular expression and does not
divide. -/
def regexPrecedes : List String :=
  ["(", ",", "=", ":", "[", "!", "&", "|", "?", "\x7b", "\x7d", ";",
   "&&", "||", "??", "=>", "==", "===", "!=", "!==", "+", "-", "*", "%",
   "<", ">", "return", "typeof", "case", "do", "else", "in", "of", "new",
   "delete", "void", "throw", "yield", "await"]

/-- Whether a slash behind the given token starts a regular expression. -/
def regexAllowed : Option Token → Bool
  | none => true
  | some t =>
    (t.kind == .punct || t.kind == .ident)
      && regexPrecedes.any (fun w => t.text == Text.ofString w)

end Lexeme

/-- The token at the beginning of a text, before it has a place: its kind, its reach, and what it
leaves open. -/
structure Lexeme where
  /-- What it is. -/
  kind : Token.Kind
  /-- The number of its glyphs. -/
  length : Nat
  /-- What it leaves open, if it does not end. -/
  fault : Option LexicalFault
deriving DecidableEq

namespace Lexeme

/-- A lexeme that cannot fail to end. -/
def whole (kind : Token.Kind) (length : Nat) : Lexeme := ⟨kind, length, none⟩

/-- The lexeme of a literal whose extent behind its first glyph is known. -/
def delimited (kind : Token.Kind) : Extent → Lexeme
  | .closed n => ⟨kind, 1 + n, none⟩
  | .broken n f => ⟨.illegal, 1 + n, some f⟩

/-- The lexeme that starts with glyph `g` and goes on in `rest`, behind the token `prev`. -/
def first (prev : Option Token) (g : Glyph) (rest : Text) : Lexeme :=
  if Text.Identifier.isStart g.toChar || g.is '\\' then
    whole .ident (nameLength .plain (g :: rest))
  else if g.is '#' && rest.head?.any (fun h => Text.Identifier.isStart h.toChar) then
    whole .ident (1 + nameLength .plain rest)
  else if g.toChar.isDigit || (g.is '.' && rest.head?.any (fun h => h.toChar.isDigit)) then
    whole .number (numberLength (isHexadecimal (g :: rest)) (g :: rest))
  else if g.is '"' || g.is '\'' then
    delimited .string (stringExtent g.toChar rest)
  else if g.is '\x60' then
    delimited .template (templateExtent [.template] rest)
  else if g.is '/' && regexAllowed prev then
    delimited .regex (regexExtent false rest)
  else
    whole .punct (punctuatorLength (g :: rest))

end Lexeme

end Exemplar
