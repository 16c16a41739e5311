import Exemplar.Text.Basic
import Exemplar.Toml.Reader

/-!
# What a TOML document says

The statements of a document build one tree of tables. Nothing may be said twice: an entry has
one value, a table one heading, and a table that was closed stays so. A table comes into being
in one of three ways, and the way decides who may add to it later. One that a longer heading
passes through is implied, and its own heading may still follow. One with a heading is stated,
and only longer headings pass through it. One that a dotted key creates may grow by other dotted
keys below the same heading, but not by a heading of its own.
-/

namespace Exemplar.Toml

/-- How a table came into being. -/
inductive Origin where
  /-- A longer heading passes through it. -/
  | implied
  /-- It has a heading. -/
  | stated
  /-- A dotted key below the heading with the given number created it. -/
  | dotted (section_ : Nat)
deriving DecidableEq

/-- A place in the tree of a document. -/
inductive Node where
  /-- A value, to which nothing can be added. -/
  | value (d : Data)
  /-- A table. -/
  | table (origin : Origin) (entries : List (String × Node))
  /-- A list of tables, the last of which is open. -/
  | tables (elements : List (List (String × Node)))

instance : Inhabited Node := ⟨.value .null⟩

/-- The entries of a table. -/
abbrev Entries := List (String × Node)

namespace Entries

/-- The entry of a given name. -/
def get? (es : Entries) (name : String) : Option Node := es.lookup name

/-- The entries with one of them replaced in its place, or a new one at the end. -/
def set (name : String) (n : Node) : Entries → Entries
  | [] => [(name, n)]
  | (other, m) :: rest =>
    if other == name then (name, n) :: rest else (other, m) :: set name n rest

end Entries

/-- Applies a change to the last element of a list. -/
def changeLast {α : Type} (f : α → Option α) : List α → Option (List α)
  | [] => none
  | [a] => (f a).map (fun b => [b])
  | a :: b :: rest => (changeLast f (b :: rest)).map (a :: ·)

/-- Applies a change to the entries that a heading passes through at a node. -/
def Node.change (f : Entries → Option Entries) : Node → Option Node
  | .value _ => none
  | .table origin es => (f es).map (.table origin ·)
  | .tables elements => (changeLast f elements).map .tables

/-- Opens the table of a heading. -/
def openTable : List String → Entries → Option Entries
  | [], _ => none
  | [name], es =>
    match es.get? name with
    | none => some (es.set name (.table .stated []))
    | some (.table .implied sub) => some (es.set name (.table .stated sub))
    | some _ => none
  | name :: next :: rest, es =>
    match es.get? name with
    | none => (openTable (next :: rest) []).map (fun sub => es.set name (.table .implied sub))
    | some n => (n.change (openTable (next :: rest))).map (es.set name ·)

/-- Opens the next element of the list of tables of a heading. -/
def openElement : List String → Entries → Option Entries
  | [], _ => none
  | [name], es =>
    match es.get? name with
    | none => some (es.set name (.tables [[]]))
    | some (.tables elements) => some (es.set name (.tables (elements ++ [[]])))
    | some _ => none
  | name :: next :: rest, es =>
    match es.get? name with
    | none => (openElement (next :: rest) []).map (fun sub => es.set name (.table .implied sub))
    | some n => (n.change (openElement (next :: rest))).map (es.set name ·)

/-- Adds a value under the names of a key, below the heading with the given number. -/
def assign (section_ : Nat) (v : Data) : List String → Entries → Option Entries
  | [], _ => none
  | [name], es =>
    match es.get? name with
    | none => some (es.set name (.value v))
    | some _ => none
  | name :: next :: rest, es =>
    match es.get? name with
    | none =>
      (assign section_ v (next :: rest) []).map (fun sub =>
        es.set name (.table (.dotted section_) sub))
    | some (.table .implied sub) =>
      (assign section_ v (next :: rest) sub).map (fun sub => es.set name (.table .implied sub))
    | some (.table (.dotted n) sub) =>
      if n = section_ then
        (assign section_ v (next :: rest) sub).map
        (fun sub => es.set name (.table (.dotted n) sub))
      else none
    | some _ => none

/-- Applies a change to the table an earlier heading opened. -/
def changeAt (f : Entries → Option Entries) : List String → Entries → Option Entries
  | [], es => f es
  | name :: rest, es =>
    match es.get? name with
    | none => none
    | some n => (n.change (changeAt f rest)).map (es.set name ·)

mutual

/-- The data at a node. -/
def Node.toData : Node → Data
  | .value d => d
  | .table _ es => .record (entriesToData es)
  | .tables elements => .list (elementsToData elements)

/-- The data of the entries of a table. -/
def entriesToData : List (String × Node) → List (String × Data)
  | [] => []
  | (name, n) :: rest => (name, n.toData) :: entriesToData rest

/-- The data of the elements of a list of tables. -/
def elementsToData : List (List (String × Node)) → List Data
  | [] => []
  | es :: rest => .record (entriesToData es) :: elementsToData rest

end

mutual

/-- What a written value says; nothing if a table in braces says something twice. -/
def Value.toData? : Value → Option Data
  | .scalar d => some d
  | .array items => (itemsToData? items).map .list
  | .inlineTable entries =>
    (inlineEntries? entries []).map (fun es => .record (entriesToData es))

/-- What the values of a list say. -/
def itemsToData? : List Value → Option (List Data)
  | [] => some []
  | v :: rest => do
    let d ← v.toData?
    let ds ← itemsToData? rest
    some (d :: ds)

/-- The entries of a table in braces, added to others. -/
def inlineEntries? : List (List String × Value) → Entries → Option Entries
  | [], es => some es
  | (path, v) :: rest, es => do
    let d ← v.toData?
    let es ← assign 0 d path es
    inlineEntries? rest es

end

/-- A document while it is put together: the number and the names of the heading in force, and
the tree so far. -/
structure Assembly where
  /-- The number of headings so far. -/
  section_ : Nat
  /-- The names of the last heading. -/
  heading : List String
  /-- The tree. -/
  root : Entries

/-- Adds a statement to a document. -/
def Assembly.add (a : Assembly) : Statement → Option Assembly
  | .table path => (openTable path a.root).map (⟨a.section_ + 1, path, ·⟩)
  | .element path => (openElement path a.root).map (⟨a.section_ + 1, path, ·⟩)
  | .entry path v => do
    let d ← v.toData?
    let root ← changeAt (assign a.section_ d path) a.heading a.root
    some { a with root := root }

/-- What the statements of a document say together. -/
def assemble? (statements : List Statement) : Option Data :=
  (statements.foldlM Assembly.add ⟨0, [], []⟩).map (fun a => .record (entriesToData a.root))

/-! ## What a document mentions -/

mutual

/-- The keys a written value mentions, behind the key it belongs to. -/
def Value.mentions (path : List String) : Value → List (List String)
  | .scalar _ => []
  | .array items => itemMentions path items
  | .inlineTable entries => entryMentions path entries

/-- The keys the values of a list mention. -/
def itemMentions (path : List String) : List Value → List (List String)
  | [] => []
  | v :: rest => v.mentions path ++ itemMentions path rest

/-- The keys a table in braces mentions. -/
def entryMentions (path : List String) : List (List String × Value) → List (List String)
  | [] => []
  | (key, v) :: rest => (path ++ key) :: v.mentions (path ++ key) ++ entryMentions path rest

end

/-- The keys mentioned by statements below a heading, each time they are mentioned and in the
order of the document. A table comes before its members. -/
def mentions (heading : List String) : List Statement → List (List String)
  | [] => []
  | .table path :: rest => path :: mentions path rest
  | .element path :: rest => path :: mentions path rest
  | .entry path v :: rest =>
    (heading ++ path) :: v.mentions (heading ++ path) ++ mentions heading rest

/-! ## Documents in files -/

/-- The characters of a text without stray bytes. -/
def characters? : Text → Option (List Char)
  | [] => some []
  | .char c :: rest => (characters? rest).map (c :: ·)
  | .stray _ :: _ => none

/-- The statements of a file. -/
def parseText? (d : Dialect) (t : Text) : Option (List Statement) :=
  (characters? t).bind (parse? d)

/-- What a file says. -/
def read? (d : Dialect) (t : Text) : Option Data := (parseText? d t).bind assemble?

end Exemplar.Toml
