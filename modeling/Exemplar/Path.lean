/-!
# Paths

Paths are texts with slashes between the names. `clean` gives the shortest path that leads to
the same place by the names alone: empty names and `.` are dropped, and `..` takes back the name
before it. A path that would be empty is `.`, and nothing lies above `/`.
-/

namespace Exemplar.Path

/-- The names between the slashes of a path. There is always at least one, possibly empty. -/
def segments : List Char → List (List Char)
  | [] => [[]]
  | c :: rest =>
    if c == '/' then [] :: segments rest
    else match segments rest with
      | [] => [[c]]
      | s :: more => (c :: s) :: more

/-- The name of the directory itself. -/
def here : List Char := ['.']

/-- The name of the directory above. -/
def above : List Char := ['.', '.']

/-- Follows one name from a place given by its names, innermost first. -/
def follow (rooted : Bool) (stack : List (List Char)) (name : List Char) : List (List Char) :=
  if name.isEmpty || name == here then stack
  else if name == above then
    match stack with
    | [] => if rooted then [] else [above]
    | top :: rest => if top == above then above :: stack else rest
  else name :: stack

/-- Names with slashes between them. -/
def joinNames : List (List Char) → List Char
  | [] => []
  | [s] => s
  | s :: t :: rest => s ++ '/' :: joinNames (t :: rest)

/-- Whether a path starts at the root. -/
def isRooted (p : List Char) : Bool := p.head? == some '/'

/-- The shortest path with the same meaning, on characters. -/
def cleanChars (p : List Char) : List Char :=
  let kept := ((segments p).foldl (follow (isRooted p)) []).reverse
  if isRooted p then '/' :: joinNames kept
  else if kept.isEmpty then here else joinNames kept

/-- The shortest path with the same meaning. -/
def clean (p : String) : String := String.ofList (cleanChars p.toList)

/-- The characters of a path without the slashes at its end. -/
def trimSlashes (p : List Char) : List Char := (p.reverse.dropWhile (· == '/')).reverse

/-- The last name of a path, on characters: `.` for the empty path and `/` for the root. -/
def baseChars (p : List Char) : List Char :=
  if p.isEmpty then here
  else match trimSlashes p with
    | [] => ['/']
    | q => (segments q).getLast?.getD []

/-- The last name of a path: `.` for the empty path and `/` for the root. -/
def base (p : String) : String := String.ofList (baseChars p.toList)

/-- Everything up to the last slash. -/
def upToSlash (p : List Char) : List Char := (p.reverse.dropWhile (· != '/')).reverse

/-- The directory a path lies in. -/
def dir (p : String) : String := String.ofList (cleanChars (upToSlash p.toList))

/-- One path behind another. Empty paths do not count, and nothing behind nothing is empty. -/
def join (p q : String) : String :=
  if p.isEmpty then (if q.isEmpty then "" else clean q) else clean (p ++ "/" ++ q)

/-- Whether a path starts at the root. -/
def isAbsolute (p : String) : Bool := isRooted p.toList

/-- A path seen from a directory, as a path from the root. -/
def resolve (cwd p : String) : String := if isAbsolute p then clean p else join cwd p

end Exemplar.Path
