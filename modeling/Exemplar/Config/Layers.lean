import Exemplar.Config.Basic
import Exemplar.Text.LetterCase
import Exemplar.Text.Lines

/-!
# Layers of settings

The effective value of a setting is found in layers. A variable of the environment comes first,
then what the configuration files say together, then what is built in. Settings are named by
keys, whose names are separated by dots and written in either case; each file is a tree of
tables whose leaves are its settings.

Layers shadow each other as trees. A value in a higher layer at a place where a lower one has a
table hides everything in that table, and the variable of a table hides what is in it for all
layers below.
-/

namespace Exemplar

/-- The variables of the environment. The first entry for a name counts. -/
abbrev Environment := List (String × String)

/-- The value of a variable, which has to be set to something. -/
def Environment.value? (env : Environment) (name : String) : Option String :=
  match env.lookup name with
  | some v => if v.isEmpty then none else some v
  | none => none

/-- A tree of settings: the entries of its root. -/
abbrev Settings := List (String × Data)

namespace Settings

/-- The names of a key. -/
def keyNames (key : String) : List String := Text.splitString '.' key

/-- The key of names. -/
def keyOf (names : List String) : String := ".".intercalate names

/-- Settings with an entry replaced in its place, or added at the end. -/
def set (name : String) (d : Data) : Settings → Settings
  | [] => [(name, d)]
  | (other, e) :: rest =>
    if other == name then (name, d) :: rest else (other, e) :: set name d rest

/-- **An entry holds what it was set to.** -/
@[simp] theorem lookup_set_self (es : Settings) (name : String) (d : Data) :
    (es.set name d).lookup name = some d := by
  induction es with
  | nil => simp [set]
  | cons e rest ih =>
    obtain ⟨other, old⟩ := e
    by_cases h : other = name
    · simp [set, h]
    · have hn : (name == other) = false := by simpa using fun hc => h hc.symm
      simp [set, h, List.lookup_cons, hn, ih]

/-- **No other entry changes.** -/
theorem lookup_set_of_ne (es : Settings) {name other : String} (h : other ≠ name) (d : Data) :
    (es.set name d).lookup other = es.lookup other := by
  have hb : (other == name) = false := by simpa using h
  induction es with
  | nil => simp [set, List.lookup_cons, hb]
  | cons e rest ih =>
    obtain ⟨key, old⟩ := e
    by_cases hk : key = name
    · simp [set, hk, List.lookup_cons, hb]
    · simp [set, hk, List.lookup_cons, ih]

/-- The table an entry holds; an empty one if it holds no table. -/
def tableAt (es : Settings) (name : String) : Settings :=
  match es.lookup name with
  | some (.record sub) => sub
  | _ => []

/-- Settings with a value under the names of a key. Whatever is in the way gives place to
tables. -/
def insert (d : Data) : List String → Settings → Settings
  | [], es => es
  | [name], es => set name d es
  | name :: next :: rest, es => set name (.record (insert d (next :: rest) (es.tableAt name))) es

mutual

/-- Data with all names in lower case. -/
def lowered : Data → Data
  | .record entries => .record (loweredEntries entries)
  | .list items => .list (loweredItems items)
  | d => d

/-- Entries with all names in lower case. The last of those that become one counts. -/
def loweredEntries : List (String × Data) → Settings
  | [] => []
  | (name, d) :: rest =>
    let more := loweredEntries rest
    let lower := Text.lowerString name
    if (more.lookup lower).isSome then more else (lower, lowered d) :: more

/-- Items with all names in lower case. -/
def loweredItems : List Data → List Data
  | [] => []
  | d :: rest => lowered d :: loweredItems rest

end

mutual

/-- The settings in data that stands under the given key. A table without settings has none. -/
def leavesAt (key : String) : Data → List (String × Data)
  | .record entries => leavesIn (key ++ ".") entries
  | d => [(key, d)]

/-- The settings in entries whose keys start with the given text. -/
def leavesIn (start : String) : List (String × Data) → List (String × Data)
  | [] => []
  | (name, d) :: rest => leavesAt (start ++ name) d ++ leavesIn start rest

end

/-- The settings of a tree, each with its key. -/
def leaves (es : Settings) : List (String × Data) := leavesIn "" es

/-- The keys of a tree. -/
def keys (es : Settings) : List String := (leaves es).map (·.1)

/-- The tree of settings given by their keys. -/
def ofLeaves (l : List (String × Data)) : Settings :=
  l.foldl (fun es e => insert e.2 (keyNames e.1) es) []

mutual

/-- Lays data over data. A table is laid over a table entry by entry. A table gives place to
nothing else, and everything else gives place. -/
def overlay : Data → Data → Data
  | .record upper, .record lower => .record (overlayEntries upper lower)
  | _, .record lower => .record lower
  | d, _ => d

/-- Lays entries over entries. -/
def overlayEntries : List (String × Data) → Settings → Settings
  | [], es => es
  | (name, d) :: rest, es =>
    overlayEntries rest
      (match es.lookup name with
        | none => es.set name d
        | some e => es.set name (overlay d e))

end

/-- The ways to take several names of a path as one, with what is left of the path; the one that
takes most comes first. -/
def splits : List String → List (String × List String)
  | [] => []
  | [name] => [(name, [])]
  | name :: next :: rest =>
    (splits (next :: rest)).map (fun s => (name ++ "." ++ s.1, s.2)) ++ [(name, next :: rest)]

/-- What stands under a name in a table, or at a position in a list. -/
def child? : Data → String → Option Data
  | .record entries, name => entries.lookup name
  | .list items, position => position.toNat?.bind (fun i => items[i]?)
  | _, _ => none

/-- What data holds under a path, taking at each step as many names as one as it can. -/
def search : Nat → Data → List String → Option Data
  | 0, _, _ => none
  | fuel + 1, d, path =>
    (splits path).findSome? (fun s =>
      match child? d s.1 with
      | none => none
      | some e => if s.2.isEmpty then some e else search fuel e s.2)

/-- Whether a value stands where a path would go on. -/
def blocks : List String → Settings → Bool
  | name :: next :: rest, es =>
    match es.lookup name with
    | none => false
    | some (.record sub) => blocks (next :: rest) sub
    | some _ => true
  | _, _ => false

/-- What a tree holds under a path, taking each name as one. -/
def follow : List String → Settings → Option Data
  | [], _ => none
  | [name], es => es.lookup name
  | name :: next :: rest, es =>
    match es.lookup name with
    | some (.record sub) => follow (next :: rest) sub
    | _ => none

/-- What is built in. -/
def builtIn : Settings :=
  let c := Config.default
  [("generate", .record [
      ("builder_name", .string c.generate.builderName),
      ("factory", .string c.generate.factory),
      ("header", .string c.generate.header),
      ("output_dir", .string c.generate.outputDir),
      ("suffix", .string c.generate.suffix),
      ("parallelism", .int c.generate.parallelism)]),
   ("types", .record [("elementary", .list []), ("enums", .list [])]),
   ("log", .record [("json", .bool c.log.json)]),
   ("requires", .string c.requires)]

/-- The variable of the environment for a key. -/
def variableName (key : String) : String :=
  let joined := String.ofList (key.toList.map (fun c => if c == '.' then '_' else c))
  Text.upperString ("FIXTUREGEN_" ++ joined)

/-- The parts of a path that lead to the tables it passes through. -/
def tablePaths (path : List String) : List (List String) :=
  (List.range path.length).tail.map (fun i => path.take i)

/-- The effective value of a key, given what the files say together. -/
def value? (env : Environment) (files : Settings) (key : String) : Option Data :=
  let path := keyNames (Text.lowerString key)
  match env.value? (variableName (Text.lowerString key)) with
  | some v => some (.string v)
  | none =>
    if (tablePaths path).any (fun p => (env.value? (variableName (keyOf p))).isSome) then none
    else match search path.length (.record files) path with
      | some d => some d
      | none => if blocks path files then none else follow path builtIn

/-- The keys that have a value in the files or a built-in one that no value in the files
hides. -/
def allKeys (files : Settings) : List String :=
  let own := keys files
  let hidden (key : String) : Bool :=
    (tablePaths (keyNames key)).any (fun p => own.contains (keyOf p))
  own ++ ((keys builtIn).filter (fun k => !own.contains k && !hidden k))

/-- All effective settings as a tree. -/
def effective (env : Environment) (files : Settings) : Settings :=
  ofLeaves ((allKeys files).filterMap (fun k => (value? env files k).map (k, ·)))

end Settings

end Exemplar
