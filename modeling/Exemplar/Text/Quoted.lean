import Exemplar.Text.Digits
import Exemplar.Text.Printable

/-!
# Quoted text

A text in double quotes, in which everything printable shows as it is and everything else as an
escape: the seven control characters that have a letter of their own, a backslash and a quote
behind a backslash, and the rest by its code point in lower-case hexadecimal digits – two for an
ASCII control character, four below U+10000, eight above. A stray byte is shown by its value in
two digits, so two texts with the same quoted form are the same text.
-/

namespace Exemplar.Text

/-- The letter of a control character that has an escape of its own. -/
def controlLetter? (c : Char) : Option Char :=
  match c.toNat with
  | 7 => some 'a'
  | 8 => some 'b'
  | 9 => some 't'
  | 10 => some 'n'
  | 11 => some 'v'
  | 12 => some 'f'
  | 13 => some 'r'
  | _ => none

/-- A character inside quotes. -/
def quoteChar (c : Char) : List Char :=
  if c == '"' || c == '\\' then ['\\', c]
  else if isPrintable c then [c]
  else match controlLetter? c with
    | some letter => ['\\', letter]
    | none =>
      if c.toNat < 0x80 then '\\' :: 'x' :: hexDigits 2 c.toNat
      else if c.toNat < 0x10000 then '\\' :: 'u' :: hexDigits 4 c.toNat
      else '\\' :: 'U' :: hexDigits 8 c.toNat

/-- A character in single quotes. In those a single quote is escaped and a double one is not. -/
def quotedChar (c : Char) : String :=
  if c == '"' then "'\"'"
  else if c == '\'' then "'\\''"
  else String.ofList ('\'' :: quoteChar c ++ ['\''])

/-- A glyph inside quotes. -/
def quoteGlyph : Glyph → List Char
  | .char c => quoteChar c
  | .stray b => '\\' :: 'x' :: hexDigits 2 b.toNat

/-- A text in double quotes. -/
def quoted (t : Text) : String :=
  String.ofList ('"' :: t.flatMap quoteGlyph ++ ['"'])

end Exemplar.Text

/-- A string in double quotes. -/
def Exemplar.quotedString (s : String) : String :=
  Exemplar.Text.quoted (Exemplar.Text.ofString s)
