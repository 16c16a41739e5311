import Exemplar.Token.Gap
import Exemplar.Token.Lexeme

/-!
# The tokens of a source

A source is a gap, a token, a gap, a token, and so on, up to a last gap and the end. Lexing cuts
it accordingly. It stops early at a literal or a comment that does not end, so the result is a
list of tokens and one `Ending`: the end of the source, or the first thing that is left open.

Which token comes next depends on the source behind the place reached, and on the token before
only in what a slash means.
-/

namespace Exemplar

/-- How the tokens of a source end. -/
structure Ending where
  /-- The last token: the end of the source, or the literal left open. -/
  token : Token
  /-- What is left open, if anything is. -/
  fault : Option LexicalFault
deriving DecidableEq, Inhabited

/-- The span a lexical fault points at. A block comment reaches the end of the source, and there
is nothing to point at. -/
def Ending.range? (e : Ending) : Option Span :=
  if e.token.kind == .illegal then some e.token.span else none

/-- All tokens of a source. -/
structure TokenStream where
  /-- The tokens before the end. -/
  tokens : List Token
  /-- How they end. -/
  ending : Ending
deriving DecidableEq, Inhabited

namespace TokenStream

/-- A stream with one more token in front. -/
def cons (t : Token) (s : TokenStream) : TokenStream := ⟨t :: s.tokens, s.ending⟩

/-- The end of a source at a place. -/
def atEnd (here : Position) (newline : Bool) (fault : Option LexicalFault) : TokenStream :=
  ⟨[], ⟨⟨.eof, [], ⟨here, here⟩, newline⟩, fault⟩⟩

/-- The tokens of `rest`, which starts at `here` behind the token `prev`. -/
def lexFrom (prev : Option Token) (here : Position) (rest : Text) : TokenStream :=
  let gap := Gap.before rest
  let start := here.after (rest.take gap.length)
  if gap.closed then
    match _h : rest.drop gap.length with
    | [] => atEnd start gap.newline none
    | g :: more =>
      let lexeme := Lexeme.first prev g more
      let text := (g :: more).take lexeme.length
      let token : Token := ⟨lexeme.kind, text, ⟨start, start.after text⟩, gap.newline⟩
      match lexeme.fault with
      | some fault => ⟨[], ⟨token, some fault⟩⟩
      | none => cons token (lexFrom (some token) token.stop (more.drop (lexeme.length - 1)))
  else
    atEnd start gap.newline (some .comment)
termination_by rest.length
decreasing_by
  have : (g :: more).length ≤ rest.length := by
    rw [← _h, List.length_drop]; exact Nat.sub_le _ _
  simp only [List.length_cons] at this
  simp only [List.length_drop]
  omega

/-- The tokens of a source. -/
def lex (source : Text) : TokenStream := lexFrom none .start source

end TokenStream

end Exemplar
