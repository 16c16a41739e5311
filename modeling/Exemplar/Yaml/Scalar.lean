import Exemplar.Yaml.Plain

/-!
# Strings in YAML

A string is written in the plainest of four styles that reads back as the same string. Without
quotes, if it neither looks like a value of another type nor collides with the notation. In
single quotes, if only the notation is in the way. As a block of lines, if it has several. In
double quotes, with escapes, for everything else: strings that look like other values, and
strings with characters that must not show as they are.
-/

namespace Exemplar.Yaml

/-- Whether a character may show as it is. -/
def isPrintable (c : Char) : Bool :=
  let n := c.toNat
  n == 0x0A || (0x20 ≤ n && n ≤ 0x7E) || (0xA0 ≤ n && n ≤ 0xD7FF)
    || (0xE000 ≤ n && n ≤ 0xFFFD && n != 0xFEFF)

/-- Whether a character ends a line. -/
def isBreak (c : Char) : Bool :=
  let n := c.toNat
  n == 0x0A || n == 0x0D || n == 0x85 || n == 0x2028 || n == 0x2029

/-- Whether a character is a blank or a tabulator. -/
def isBlank (c : Char) : Bool := c == ' ' || c == '\t'

/-- Whether the rest of a string starts with a blank or is empty. -/
def blankFollows : List Char → Bool
  | [] => true
  | c :: _ => isBlank c

/-- Whether a string starts with a character that means something there, or with a mark between
documents. -/
def startsWithIndicator (s : List Char) : Bool :=
  match s with
  | [] => false
  | c :: rest =>
    "#,[]\x7b\x7d&*!|>'\"%@\x60".toList.contains c
      || ((c == '?' || c == ':' || c == '-') && blankFollows rest)
      || ['-', '-', '-'].isPrefixOf s || ['.', '.', '.'].isPrefixOf s

/-- Whether a string has, behind its first character, a colon in front of a blank or a number
sign behind one. -/
def hasInnerIndicator : List Char → Bool
  | [] => false
  | previous :: rest =>
    match rest with
    | [] => false
    | c :: more =>
      (c == ':' && blankFollows more)
        || (c == '#' && (isBlank previous || isBreak previous))
        || hasInnerIndicator (c :: more)

/-- Whether somewhere a character of the first kind is followed by one of the second. -/
def hasPair (p q : Char → Bool) : List Char → Bool
  | [] => false
  | [_] => false
  | c :: d :: rest => (p c && q d) || hasPair p q (d :: rest)

/-- Whether a blank is in front of the end of a line. -/
def hasBlankBeforeBreak (s : List Char) : Bool := hasPair (· == ' ') isBreak s

/-- Whether a line starts with a blank. -/
def hasBlankAfterBreak (s : List Char) : Bool := hasPair isBreak (· == ' ') s

/-- Whether a string has characters that must not show as they are. A tabulator may show in a
block of lines. -/
def hasSpecial (s : List Char) : Bool := s.any (fun c => c != '\t' && !isPrintable c)

/-- Whether the notation allows a string without quotes. -/
def plainAllowed (s : List Char) : Bool :=
  let edge (c : Option Char) : Bool := (c.map (fun c => c == ' ' || isBreak c)).getD false
  !edge s.head? && !edge s.getLast? && !startsWithIndicator s && !hasInnerIndicator s
    && !s.any isBreak && !s.contains '\t' && !hasSpecial s

/-- Whether the notation allows a string in single quotes. -/
def singleAllowed (s : List Char) : Bool :=
  !hasBlankAfterBreak s && !hasBlankBeforeBreak s && !s.contains '\t' && !hasSpecial s

/-- Whether the notation allows a string as a block of lines. -/
def blockAllowed (s : List Char) : Bool :=
  s.getLast? != some ' ' && !hasBlankBeforeBreak s && !hasSpecial s

/-- The letter of an escape, for characters that have one. -/
def escapeLetter? (c : Char) : Option Char :=
  match c.toNat with
  | 0x00 => some '0'
  | 0x07 => some 'a'
  | 0x08 => some 'b'
  | 0x09 => some 't'
  | 0x0A => some 'n'
  | 0x0B => some 'v'
  | 0x0C => some 'f'
  | 0x0D => some 'r'
  | 0x1B => some 'e'
  | 0x22 => some '"'
  | 0x5C => some '\\'
  | 0x85 => some 'N'
  | 0xA0 => some '_'
  | 0x2028 => some 'L'
  | 0x2029 => some 'P'
  | _ => none

/-- A character inside double quotes. -/
def escapeChar (c : Char) : List Char :=
  if isPrintable c && !isBreak c && c != '"' && c != '\\' then [c]
  else match escapeLetter? c with
    | some letter => ['\\', letter]
    | none =>
      if c.toNat ≤ 0xFF then '\\' :: 'x' :: Text.upperHexDigits 2 c.toNat
      else if c.toNat ≤ 0xFFFF then '\\' :: 'u' :: Text.upperHexDigits 4 c.toNat
      else '\\' :: 'U' :: Text.upperHexDigits 8 c.toNat

/-- A string in double quotes. -/
def doubleQuoted (s : List Char) : String := String.ofList ('"' :: s.flatMap escapeChar ++ ['"'])

/-- A string in single quotes. -/
def singleQuoted (s : List Char) : String :=
  String.ofList ('\'' :: s.flatMap (fun c => if c == '\'' then ['\'', '\''] else [c]) ++ ['\''])

/-- Text that goes on behind a line or paragraph separator, with an indentation behind each of
those. -/
def indentSeparated (indent : List Char) : List Char → List Char
  | [] => []
  | [c] => [c]
  | c :: d :: rest =>
    if isBreak c && !isBreak d then c :: indent ++ indentSeparated indent (d :: rest)
    else c :: indentSeparated indent (d :: rest)

/-- The lines of a string, without the breaks that end them. -/
def linesOf (s : List Char) : List (List Char) :=
  match (Text.splitAt '\n' s).reverse with
  | [] :: rest => rest.reverse
  | all => all.reverse

/-- The mark in front of a block: whether the width of its indentation has to be told, and what
is done with the breaks at its end. -/
def blockMark (s : List Char) : String :=
  let edge := match s with
    | [] => ""
    | c :: _ => if c == ' ' || isBreak c then "4" else ""
  let chomp := match s.reverse with
    | [] => "-"
    | c :: rest =>
      if !isBreak c then "-"
      else match rest with
        | [] => "+"
        | d :: _ => if isBreak d then "+" else ""
  "|" ++ edge ++ chomp

/-- A string as it is written: on the line where it stands, or as a block below it. -/
inductive Scalar where
  /-- On one line. -/
  | inline (s : String)
  /-- In single quotes. -/
  | quoted (s : List Char)
  /-- A mark, and lines to be indented. -/
  | block (mark : String) (lines : List (List Char))

/-- The written form of a string. -/
def scalar (s : String) : Scalar :=
  let cs := s.toList
  if cs.contains '\n' then
    if blockAllowed cs then
      let lines := linesOf cs
      .block (blockMark cs) (if cs.head? == some '\n' then lines.drop 1 else lines)
    else .inline (doubleQuoted cs)
  else if readsOtherwise s then .inline (doubleQuoted cs)
  else if plainAllowed cs then .inline s
  else if singleAllowed cs then .quoted cs
  else .inline (doubleQuoted cs)

/-- The written form of a name in front of a colon, which has to be on one line. -/
def keyText (s : String) : String :=
  match scalar s with
  | .inline t => t
  | .quoted t => if t.any isBreak then doubleQuoted t else singleQuoted t
  | .block _ _ => doubleQuoted s.toList

end Exemplar.Yaml
