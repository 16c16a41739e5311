import Exemplar.Path
import Exemplar.Text.Basic

/-!
# The file system

What a run sees of the file system is a value: which places hold a file or a directory, and what
is in the files. An operation on it gives a new value or a refusal, and there is no other state.

A place is given by the names on the way to it, the innermost first, so the directory it lies in
is the rest of the list. Paths are followed name by name, and every name but the last has to
lead to a directory that is there: `x/../a` is no way to `a` if there is no `x`.
-/

namespace Exemplar

/-- The names on the way from a place up to the root. -/
abbrev Place := List String

/-- What a place holds. -/
inductive Entry where
  /-- A file with its content. -/
  | file (content : Text)
  /-- A directory. -/
  | directory
deriving DecidableEq

/-- Why the file system refuses. -/
inductive Refusal where
  /-- There is nothing at the place. -/
  | missing
  /-- Something on the way is a file. -/
  | notDirectory
  /-- The place holds a directory. -/
  | isDirectory
  /-- The place is taken. -/
  | taken
  /-- The directory is not empty. -/
  | notEmpty
deriving DecidableEq

/-- The wording of a refusal. -/
def Refusal.text : Refusal → String
  | .missing => "no such file or directory"
  | .notDirectory => "not a directory"
  | .isDirectory => "is a directory"
  | .taken => "file exists"
  | .notEmpty => "directory not empty"

/-- A file system. The root is a directory in any case. -/
structure Disk where
  /-- What the places below the root hold. The first entry for a place counts. -/
  entries : List (Place × Entry)

namespace Disk

/-- A file system with nothing in it. -/
def empty : Disk := ⟨[]⟩

/-- What a place holds. -/
def get? (d : Disk) (p : Place) : Option Entry :=
  if p.isEmpty then some .directory else d.entries.lookup p

/-- The file system without the entries for a place. -/
def erase (d : Disk) (p : Place) : Disk := ⟨d.entries.filter (fun e => e.1 != p)⟩

/-- The file system with an entry for a place. -/
def set (d : Disk) (p : Place) (e : Entry) : Disk := ⟨(p, e) :: (d.erase p).entries⟩

@[simp] theorem get?_nil (d : Disk) : d.get? [] = some .directory := rfl

/-- What is looked up among the entries of some places is found as among all, if its place is
one of them. -/
theorem lookup_filter_of_pos {f : Place → Bool} {x : Place} (hx : f x = true)
    (l : List (Place × Entry)) :
    (l.filter (fun e => f e.1)).lookup x = l.lookup x := by
  induction l with
  | nil => rfl
  | cons e rest ih =>
    obtain ⟨k, v⟩ := e
    by_cases hk : f k = true
    · rw [List.filter_cons_of_pos (by exact hk), List.lookup_cons, List.lookup_cons, ih]
    · have hne : (x == k) = false := by
        rw [beq_eq_false_iff_ne]
        rintro rfl
        exact hk hx
      rw [List.filter_cons_of_neg (by exact hk), ih, List.lookup_cons, hne]

theorem lookup_filter_of_neg {f : Place → Bool} {x : Place} (hx : f x = false)
    (l : List (Place × Entry)) :
    (l.filter (fun e => f e.1)).lookup x = none := by
  rw [List.lookup_eq_none_iff]
  intro e he
  rw [bne_iff_ne]
  rintro rfl
  rw [(List.mem_filter.1 he).2] at hx
  cases hx

/-- **A place holds what was put there.** -/
theorem get?_set_self (d : Disk) {p : Place} (hp : p ≠ []) (e : Entry) :
    (d.set p e).get? p = some e := by
  simp [get?, set, hp]

/-- **No other place changes.** -/
theorem get?_set_of_ne (d : Disk) {p q : Place} (h : q ≠ p) (e : Entry) :
    (d.set p e).get? q = d.get? q := by
  by_cases hq : q = []
  · simp [hq]
  · have hb : (q == p) = false := by simpa using h
    simp [get?, set, erase, hq, List.lookup_cons, hb,
      lookup_filter_of_pos (f := (· != p)) (bne_iff_ne.2 h)]

theorem get?_erase_self (d : Disk) {p : Place} (hp : p ≠ []) : (d.erase p).get? p = none := by
  simp [get?, erase, hp, lookup_filter_of_neg (f := (· != p)) (bne_self_eq_false p)]

theorem get?_erase_of_ne (d : Disk) {p q : Place} (h : q ≠ p) :
    (d.erase p).get? q = d.get? q := by
  by_cases hq : q = []
  · simp [hq]
  · simp [get?, erase, hq, lookup_filter_of_pos (f := (· != p)) (bne_iff_ne.2 h)]

/-- Follows names from a place. Each of them has to be taken in a directory. -/
def walk (d : Disk) : Place → List String → Except Refusal Place
  | here, [] => .ok here
  | here, name :: rest =>
    match d.get? here with
    | some .directory =>
      if name == "" || name == "." then walk d here rest
      else if name == ".." then walk d here.tail rest
      else walk d (name :: here) rest
    | some (.file _) => .error .notDirectory
    | none => .error .missing

/-- The names of a path. -/
def names (path : String) : List String := (Path.segments path.toList).map String.ofList

/-- The place a path leads to, seen from a directory. The directory it lies in is there; the
place itself may be free. -/
def locate (d : Disk) (cwd path : String) : Except Refusal Place :=
  if path.isEmpty then .error .missing
  else d.walk [] (names (if Path.isAbsolute path then path else cwd ++ "/" ++ path))

/-- What a path leads to. -/
def stat (d : Disk) (cwd path : String) : Except Refusal Entry :=
  match d.locate cwd path with
  | .error r => .error r
  | .ok p =>
    match d.get? p with
    | some e => .ok e
    | none => .error .missing

/-- Whether a path leads to something. -/
def holds (d : Disk) (cwd path : String) : Bool := (d.stat cwd path).toBool

/-- Whether something lies in a directory. -/
def hasChildren (d : Disk) (p : Place) : Bool :=
  d.entries.any (fun e => !e.1.isEmpty && e.1.tail == p)

/-- Whether a place is another one or lies below it. -/
def isWithin (q p : Place) : Bool := p.isSuffixOf q

/-- The path of a place from the root. -/
def pathOf (p : Place) : String := "/" ++ "/".intercalate p.reverse

/-- The files below a place, each with the names from there on, in the order of their bytes. -/
def filesWithin (d : Disk) (root : Place) : List String :=
  let within := d.entries.filterMap (fun e =>
    match e.2 with
    | .file _ =>
      if isWithin e.1 root then
        some ("/".intercalate (e.1.take (e.1.length - root.length)).reverse)
      else none
    | .directory => none)
  within.mergeSort (fun a b => Text.le (Text.ofString a) (Text.ofString b))

end Disk

end Exemplar
