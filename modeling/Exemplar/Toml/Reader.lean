import Exemplar.Toml.Number

/-!
# Reading TOML

Reading goes from left to right over the characters. A reader takes what it reads off the front
and gives back the rest; it fails as a whole if the text is not of its form. Strings and blank
space are read by recursion over the text itself. Values nest, so they are read with a bound on
the number of steps that the length of the text provides.
-/

namespace Exemplar.Toml

open Text (digitValue numeral)

/-! ## Blank space and ends of lines -/

/-- The text behind blanks and tabulators. -/
def skipBlanks (s : List Char) : List Char := s.dropWhile (fun c => c == ' ' || c == '\t')

/-- The text behind a line break, if it starts with one. -/
def afterBreak? : List Char → Option (List Char)
  | '\n' :: rest => some rest
  | '\r' :: '\n' :: rest => some rest
  | _ => none

/-- The text behind a comment and the end of its line. -/
def afterComment? : List Char → Option (List Char)
  | [] => some []
  | '\n' :: rest => some rest
  | '\r' :: '\n' :: rest => some rest
  | c :: rest => if isControl c then none else afterComment? rest

/-- The text behind the end of a line, in front of which there may be blanks and a comment. -/
def afterLine? (s : List Char) : Option (List Char) :=
  match skipBlanks s with
  | [] => some []
  | '#' :: rest => afterComment? rest
  | rest => afterBreak? rest

/-- The text behind blanks, line breaks and comments. -/
def skipSpace? (inComment : Bool) : List Char → Option (List Char)
  | [] => some []
  | '\n' :: rest => skipSpace? false rest
  | '\r' :: '\n' :: rest => skipSpace? false rest
  | c :: rest =>
    if inComment then if isControl c then none else skipSpace? true rest
    else if c == ' ' || c == '\t' then skipSpace? false rest
    else if c == '#' then skipSpace? true rest
    else some (c :: rest)

/-! ## Strings -/

/-- The character with a given code point, if it is one. -/
def character? (ds : List Char) : Option Char :=
  if ds.all (fun c => digitValue c < 16) then
    let n := numeral 16 ds
    if n < 0xD800 || (0xE000 ≤ n && n ≤ 0x10FFFF) then some (Char.ofNat n) else none
  else none

/-- The character an escape with a single letter stands for. -/
def escaped? (d : Dialect) (c : Char) : Option Char :=
  match c with
  | 'b' => some '\x08'
  | 't' => some '\t'
  | 'n' => some '\n'
  | 'f' => some '\x0c'
  | 'r' => some '\r'
  | '"' => some '"'
  | '\\' => some '\\'
  | 'e' => if d.moreEscapes then some '\x1b' else none
  | _ => none

/-- A character in front of the rest of a reading. -/
def consTo (c : Char) (r : List Char × List Char) : List Char × List Char := (c :: r.1, r.2)

/-- The content of a string in double quotes behind the first of them, and what follows the
second. -/
def basicString? (d : Dialect) : List Char → Option (List Char × List Char)
  | [] => none
  | '"' :: rest => some ([], rest)
  | '\\' :: 'u' :: a :: b :: c :: e :: rest => do
    let x ← character? [a, b, c, e]
    (basicString? d rest).map (consTo x)
  | '\\' :: 'U' :: a :: b :: c :: e :: f :: g :: h :: i :: rest => do
    let x ← character? [a, b, c, e, f, g, h, i]
    (basicString? d rest).map (consTo x)
  | '\\' :: 'x' :: a :: b :: rest => do
    let x ← if d.moreEscapes then character? [a, b] else none
    (basicString? d rest).map (consTo x)
  | '\\' :: c :: rest => do
    let x ← escaped? d c
    (basicString? d rest).map (consTo x)
  | c :: rest =>
    if isControl c then none else (basicString? d rest).map (consTo c)

/-- The content of a string in single quotes behind the first of them, and what follows the
second. -/
def literalString? : List Char → Option (List Char × List Char)
  | [] => none
  | '\'' :: rest => some ([], rest)
  | c :: rest => if isControl c then none else (literalString? rest).map (consTo c)

/-- Whether only blanks stand in front of a line break. -/
def endsLine (s : List Char) : Bool := (afterBreak? (skipBlanks s)).isSome

/-- The content of a string in three double quotes behind the first three, and what follows the
last. While `folding`, blanks and line breaks are left out. -/
def longBasicString? (d : Dialect) (folding : Bool) : List Char → Option (List Char × List Char)
  | [] => none
  | '"' :: '"' :: '"' :: '"' :: '"' :: rest => some (['"', '"'], rest)
  | '"' :: '"' :: '"' :: '"' :: rest => some (['"'], rest)
  | '"' :: '"' :: '"' :: rest => some ([], rest)
  | '\\' :: 'u' :: a :: b :: c :: e :: rest => do
    let x ← character? [a, b, c, e]
    (longBasicString? d false rest).map (consTo x)
  | '\\' :: 'U' :: a :: b :: c :: e :: f :: g :: h :: i :: rest => do
    let x ← character? [a, b, c, e, f, g, h, i]
    (longBasicString? d false rest).map (consTo x)
  | '\\' :: 'x' :: a :: b :: rest => do
    let x ← if d.moreEscapes then character? [a, b] else none
    (longBasicString? d false rest).map (consTo x)
  | '\\' :: c :: rest =>
    if endsLine (c :: rest) then longBasicString? d true rest
    else do
      let x ← escaped? d c
      (longBasicString? d false rest).map (consTo x)
  | '\n' :: rest =>
    if folding then longBasicString? d true rest
    else (longBasicString? d false rest).map (consTo '\n')
  | '\r' :: '\n' :: rest =>
    if folding then longBasicString? d true rest
    else (longBasicString? d false rest).map (fun r => consTo '\r' (consTo '\n' r))
  | c :: rest =>
    if folding && (c == ' ' || c == '\t') then longBasicString? d true rest
    else if isControl c then none
    else (longBasicString? d false rest).map (consTo c)

/-- The content of a string in three single quotes behind the first three, and what follows the
last. -/
def longLiteralString? : List Char → Option (List Char × List Char)
  | [] => none
  | '\'' :: '\'' :: '\'' :: '\'' :: '\'' :: rest => some (['\'', '\''], rest)
  | '\'' :: '\'' :: '\'' :: '\'' :: rest => some (['\''], rest)
  | '\'' :: '\'' :: '\'' :: rest => some ([], rest)
  | '\n' :: rest => (longLiteralString? rest).map (consTo '\n')
  | '\r' :: '\n' :: rest =>
    (longLiteralString? rest).map (fun r => consTo '\r' (consTo '\n' r))
  | c :: rest => if isControl c then none else (longLiteralString? rest).map (consTo c)

/-- The text behind a line break right after the quotes of a long string. -/
def afterFirstBreak (s : List Char) : List Char := (afterBreak? s).getD s

/-- A string of any of the four forms. -/
def string? (d : Dialect) : List Char → Option (List Char × List Char)
  | '"' :: '"' :: '"' :: rest => longBasicString? d false (afterFirstBreak rest)
  | '"' :: rest => basicString? d rest
  | '\'' :: '\'' :: '\'' :: rest => longLiteralString? (afterFirstBreak rest)
  | '\'' :: rest => literalString? rest
  | _ => none

/-! ## Keys -/

/-- One name of a key. -/
def name? (d : Dialect) (s : List Char) : Option (String × List Char) :=
  match s with
  | '"' :: rest => (basicString? d rest).map (fun r => (String.ofList r.1, r.2))
  | '\'' :: rest => (literalString? rest).map (fun r => (String.ofList r.1, r.2))
  | _ =>
    let (bare, rest) := s.span isBare
    if bare.isEmpty then none else some (String.ofList bare, rest)

/-- The names of a key, with dots between them. -/
def key? (d : Dialect) : Nat → List Char → Option (List String × List Char)
  | 0, _ => none
  | fuel + 1, s => do
    let (name, rest) ← name? d s
    match skipBlanks rest with
    | '.' :: more =>
      let (names, rest) ← key? d fuel (skipBlanks more)
      some (name :: names, rest)
    | rest => some ([name], rest)

/-! ## Values -/

/-- The text in front of an item of a table in braces. -/
def skipInTable? (d : Dialect) (s : List Char) : Option (List Char) :=
  if d.looseTables then skipSpace? false s else some (skipBlanks s)

mutual

/-- A value at the start of a text. -/
def value? (d : Dialect) : Nat → List Char → Option (Value × List Char)
  | 0, _ => none
  | fuel + 1, s =>
    match s with
    | '[' :: rest => do
      let (items, rest) ← items? d fuel rest
      some (.array items, rest)
    | '\x7b' :: rest => do
      let rest ← skipInTable? d rest
      match rest with
      | '\x7d' :: more => some (.inlineTable [], more)
      | _ =>
        let (entries, rest) ← members? d fuel rest
        some (.inlineTable entries, rest)
    | c :: _ =>
      if c == '"' || c == '\'' then do
        let (content, rest) ← string? d s
        some (.scalar (.string (String.ofList content)), rest)
      else do
        let (chars, rest) := run s
        let v ← scalar? d chars
        some (.scalar v, rest)
    | [] => none

/-- The items of a list behind its bracket or a comma. -/
def items? (d : Dialect) : Nat → List Char → Option (List Value × List Char)
  | 0, _ => none
  | fuel + 1, s => do
    match ← skipSpace? false s with
    | ']' :: rest => some ([], rest)
    | s =>
      let (v, rest) ← value? d fuel s
      match ← skipSpace? false rest with
      | ']' :: rest => some ([v], rest)
      | ',' :: rest =>
        let (more, rest) ← items? d fuel rest
        some (v :: more, rest)
      | _ => none

/-- The entries of a table in braces, of which there is at least one. -/
def members? (d : Dialect) : Nat → List Char → Option (List (List String × Value) × List Char)
  | 0, _ => none
  | fuel + 1, s => do
    let (path, rest) ← key? d fuel s
    match skipBlanks rest with
    | '=' :: rest =>
      let (v, rest) ← value? d fuel (skipBlanks rest)
      match ← skipInTable? d rest with
      | '\x7d' :: rest => some ([(path, v)], rest)
      | ',' :: rest =>
        match ← skipInTable? d rest with
        | '\x7d' :: rest => if d.looseTables then some ([(path, v)], rest) else none
        | rest =>
          let (more, rest) ← members? d fuel rest
          some ((path, v) :: more, rest)
      | _ => none
    | _ => none

end

/-! ## Statements -/

/-- A statement at the start of a line, behind its blanks. -/
def statement? (d : Dialect) (fuel : Nat) : List Char → Option (Statement × List Char)
  | '[' :: '[' :: rest => do
    let (path, rest) ← key? d fuel (skipBlanks rest)
    match rest with
    | ']' :: ']' :: rest => some (.element path, rest)
    | _ => none
  | '[' :: rest => do
    let (path, rest) ← key? d fuel (skipBlanks rest)
    match rest with
    | ']' :: rest => some (.table path, rest)
    | _ => none
  | s => do
    let (path, rest) ← key? d fuel s
    match rest with
    | '=' :: rest =>
      let (v, rest) ← value? d fuel (skipBlanks rest)
      some (.entry path v, rest)
    | _ => none

/-- The statements of a text, at most one to a line. -/
def statements? (d : Dialect) (fuel : Nat) : Nat → List Char → Option (List Statement)
  | 0, _ => none
  | bound + 1, s =>
    match skipBlanks s with
    | [] => some []
    | c :: rest =>
      match afterLine? (c :: rest) with
      | some rest => statements? d fuel bound rest
      | none => do
        if c == '#' then none
        let (statement, rest) ← statement? d fuel (c :: rest)
        let rest ← afterLine? rest
        let more ← statements? d fuel bound rest
        some (statement :: more)

/-- A text without a mark for the byte order, where the notation allows one. -/
def withoutMark (d : Dialect) : List Char → List Char
  | c :: rest => if d.skipsMark && c.toNat = 0xFEFF then rest else c :: rest
  | [] => []

/-- The statements of a document. -/
def parse? (d : Dialect) (s : List Char) : Option (List Statement) :=
  statements? d (2 * s.length + 4) (s.length + 1) (withoutMark d s)

end Exemplar.Toml
