import Exemplar.Source.Position
import Exemplar.Text.Quoted

/-!
# Tokens

A token is a piece of a source with a kind. Keywords are not a kind of their own: a word such as
`type` or `readonly` names a field as often as it introduces a declaration, so the grammar
decides by the text where a word acts as a keyword.

A token remembers whether a line ended between it and the token before it, which is all that is
kept of the gap between the two. Statements may end there without a semicolon.
-/

namespace Exemplar

/-- The kinds of token. -/
inductive Token.Kind where
  /-- The end of the source. -/
  | eof
  /-- An identifier or keyword. -/
  | ident
  /-- A string literal. -/
  | string
  /-- A number literal. -/
  | number
  /-- A template literal with everything inside it. -/
  | template
  /-- A regular expression literal with its flags. -/
  | regex
  /-- A punctuator, or any other character. -/
  | punct
  /-- A literal that does not end. -/
  | illegal
deriving DecidableEq, Inhabited

/-- The kinds in their fixed order. -/
def Token.Kind.all : List Token.Kind :=
  [.eof, .ident, .string, .number, .template, .regex, .punct, .illegal]

/-- The name of a kind. -/
def Token.Kind.name : Token.Kind → String
  | .eof => "EOF"
  | .ident => "Ident"
  | .string => "String"
  | .number => "Number"
  | .template => "Template"
  | .regex => "Regex"
  | .punct => "Punct"
  | .illegal => "Illegal"

/-- The name shown for the number of a kind, whether or not there is a kind of that number. -/
def Token.Kind.nameOfNumber (n : Int) : String :=
  if n < 0 then s!"TokenType({n})"
  else match Token.Kind.all[n.toNat]? with
    | some k => k.name
    | none => s!"TokenType({n})"

/-- A piece of a source with a kind. -/
structure Token where
  /-- What it is. -/
  kind : Token.Kind
  /-- Its text, as it stands in the source. -/
  text : Text
  /-- Where it stands. -/
  span : Span
  /-- Whether a line ends between the token before and this one. -/
  newlineBefore : Bool
deriving DecidableEq, Inhabited

namespace Token

/-- Where a token starts. -/
def start (t : Token) : Position := t.span.start

/-- Where a token stops. -/
def stop (t : Token) : Position := t.span.stop

/-- Whether a token is the given word or punctuator. A string literal with that text is not. -/
def is (t : Token) (word : String) : Bool :=
  (t.kind == .punct || t.kind == .ident) && t.text == Text.ofString word

/-- Whether a token is an identifier or keyword. -/
def isIdent (t : Token) : Bool := t.kind == .ident

/-- Whether a token is the end of the source. -/
def isEof (t : Token) : Bool := t.kind == .eof

/-- Whether a token opens a bracket group. -/
def isOpener (t : Token) : Bool :=
  t.kind == .punct &&
    (t.text == Text.ofString "(" || t.text == Text.ofString "[" || t.text
      == Text.ofString "\x7b")

/-- Whether a token closes a bracket group. -/
def isCloser (t : Token) : Bool :=
  t.kind == .punct &&
    (t.text == Text.ofString ")" || t.text == Text.ofString "]" || t.text
      == Text.ofString "\x7d")

/-- The bracket that closes the group a token opens. -/
def closer (t : Token) : Text :=
  if t.text == Text.ofString "(" then Text.ofString ")"
  else if t.text == Text.ofString "[" then Text.ofString "]"
  else Text.ofString "\x7d"

/-- A token as a message names it. -/
def describe (t : Token) : String :=
  if t.isEof then "end of file" else t.text.quoted

end Token

end Exemplar
