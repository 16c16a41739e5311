import Exemplar.Model.Tables

/-!
# Templates

A template is a text with placeholders `@{name}` in it. Filling replaces each placeholder whose
name has a value, in one pass from left to right: what a value contains is never looked at
again, and a placeholder without a value stays as it is.

A name may itself contain a closing brace, so two placeholders may start at the same place. The
one whose name comes first in the order of bytes is then meant.
-/

namespace Exemplar.Template

/-- A placeholder as it is written. -/
def placeholder (name : Text) : Text :=
  Text.ofString "@\x7b" ++ name ++ Text.ofString "\x7d"

/-- Values for the names of placeholders. -/
abbrev Mapping := List (Text × Text)

/-- The placeholder at the beginning of a text, among those of a mapping: how long it is, and its
value. -/
def placeholderAt? (mapping : Mapping) (t : Text) : Option (Nat × Text) :=
  (mapping.find? (fun p => (placeholder p.1).isPrefixOf t)).map
    (fun p => ((placeholder p.1).length, p.2))

/-- Fills a text of which the first `skip` glyphs belong to a placeholder already filled. -/
def fillFrom (mapping : Mapping) (skip : Nat) : Text → Text
  | [] => []
  | g :: rest =>
    match skip with
    | k + 1 => fillFrom mapping k rest
    | 0 =>
      match placeholderAt? mapping (g :: rest) with
      | some (n, value) => value ++ fillFrom mapping (n - 1) rest
      | none => g :: fillFrom mapping 0 rest

/-- Fills the placeholders of a template. -/
def fill (template : Text) (mapping : Mapping) : Text :=
  fillFrom (mapping.mergeSort (fun p q => Text.le p.1 q.1)) 0 template

/-- The names between `@{` and the next `}`, in order. The name of an open placeholder has been
read as far as `name`. -/
def namesFrom (name : Option Text) : Text → List Text
  | [] => []
  | g :: rest =>
    match name with
    | some name =>
      if g.is '\x7d' then name :: namesFrom none rest else namesFrom (some (name ++ [g])) rest
    | none =>
      if g.is '@' then
        match rest with
        | h :: rest' =>
          if h.is '\x7b' then namesFrom (some []) rest' else namesFrom none (h :: rest')
        | [] => []
      else namesFrom none rest

/-- The names of the placeholders of a template, each once, in the order of first appearance. -/
def names (template : Text) : List Text := (namesFrom none template).eraseDups

end Exemplar.Template
