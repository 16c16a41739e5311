import Exemplar.Disk.Access
import Exemplar.Proofs.Path.Joining

/-!
# What writing leaves alone

Writing a file changes what one place holds, and making directories takes only places that were
free. Neither makes a directory disappear, and this is all that following a path asks for: a
path that leads to a place before leads there afterwards.

Two relations between a disk and a later one say this. `Keeps` says that all that was there is
there unchanged, which holds when directories are made. `KeepsDirs` says it of directories only,
which holds for writing too, as a file is written over a file at most. The weaker one is enough
for paths.
-/

namespace Exemplar.Disk

variable {d d' d'' : Disk} {cwd path : String} {p q : Place}

/-! ## Following a path

A step along a name needs a directory to start from and does not ask what it leads to. -/

/-- The place one name leads to from a directory. -/
def step (p : Place) (name : String) : Place :=
  if name == "" || name == "." then p else if name == ".." then p.tail else name :: p

/-- A proper name leads down. -/
theorem step_of_isName {n : String} (hn : Path.IsName n.toList) (p : Place) :
    step p n = n :: p := by
  have hne : n ≠ "" := by rintro rfl; exact hn.ne_nil rfl
  have hhere : n ≠ "." := by rintro rfl; exact hn.ne_here rfl
  have habove : n ≠ ".." := by rintro rfl; exact hn.ne_above rfl
  rw [step, if_neg (by simp [hne, hhere]), if_neg (by simp [habove])]

/-- A walk looks at the place it has come to, and from a directory it takes the step of the next
name. -/
theorem walk_cons (d : Disk) (p : Place) (name : String) (rest : List String) :
    d.walk p (name :: rest) = match d.get? p with
      | some .directory => d.walk (step p name) rest
      | some (.file _) => .error .notDirectory
      | none => .error .missing := by
  rw [walk, step]
  cases d.get? p with
  | none => rfl
  | some e =>
    cases e with
    | file content => rfl
    | directory =>
      dsimp only
      split
      · rfl
      split <;> rfl

/-- A walk goes on from directories only. -/
theorem walk_cons_eq_ok {name : String} {rest : List String}
    (h : d.walk p (name :: rest) = .ok q) :
    d.get? p = some .directory ∧ d.walk (step p name) rest = .ok q := by
  rw [walk_cons] at h
  cases hp : d.get? p with
  | none => rw [hp] at h; cases h
  | some e =>
    rw [hp] at h
    cases e with
    | file content => cases h
    | directory => exact ⟨rfl, h⟩

/-- A walk along a path that ends with a name ends with a step along that name. -/
theorem walk_concat_eq_ok {front : List String} {n : String}
    (h : d.walk q (front ++ [n]) = .ok p) : ∃ dir, p = step dir n := by
  induction front generalizing q with
  | nil =>
    obtain ⟨-, h⟩ := walk_cons_eq_ok h
    cases h
    exact ⟨q, rfl⟩
  | cons name rest ih => exact ih (walk_cons_eq_ok h).2

/-- Every directory is still there. -/
def KeepsDirs (d d' : Disk) : Prop :=
  ∀ p, d.get? p = some .directory → d'.get? p = some .directory

/-- **Paths lead where they led.** Every step is taken from a directory, and those are still
there. -/
theorem KeepsDirs.walk (h : KeepsDirs d d') {names : List String}
    (hw : d.walk p names = .ok q) : d'.walk p names = .ok q := by
  induction names generalizing p with
  | nil => exact hw
  | cons name rest ih =>
    obtain ⟨hp, hw⟩ := walk_cons_eq_ok hw
    rw [walk_cons, h p hp]
    exact ih hw

/-- Also when the names of the current directory come first. -/
theorem KeepsDirs.locate (h : KeepsDirs d d') (hl : d.locate cwd path = .ok p) :
    d'.locate cwd path = .ok p := by
  unfold Disk.locate at hl ⊢
  by_cases hpath : path.isEmpty = true
  · rw [if_pos hpath] at hl
    cases hl
  · rw [if_neg hpath] at hl ⊢
    exact h.walk hl

/-- The names of two paths with a slash between them. -/
theorem names_append_slash (a b : String) : names (a ++ "/" ++ b) = names a ++ names b := by
  rw [names, String.toList_append, String.toList_append,
    show a.toList ++ "/".toList ++ b.toList = a.toList ++ '/' :: b.toList by simp,
    Path.segments_append, List.map_append]
  rfl

/-- **The place a name joined to a directory leads to has that name.** -/
theorem locate_join {dir n : String} (hn : Path.IsName n.toList)
    (h : d.locate cwd (Path.join dir n) = .ok p) : ∃ parent, p = n :: parent := by
  obtain ⟨front, hfront⟩ := Path.segments_join hn dir
  have hnames : names (Path.join dir n) = front.map String.ofList ++ [n] := by
    rw [names, hfront, List.map_append, List.map_singleton, String.ofList_toList]
  rw [Disk.locate] at h
  -- An empty path leads nowhere; otherwise the walk ends with the step along the last name.
  split at h
  · cases h
  split at h
  · rw [hnames] at h
    obtain ⟨parent, rfl⟩ := walk_concat_eq_ok h
    exact ⟨parent, step_of_isName hn parent⟩
  · rw [names_append_slash, hnames, ← List.append_assoc] at h
    obtain ⟨parent, rfl⟩ := walk_concat_eq_ok h
    exact ⟨parent, step_of_isName hn parent⟩

/-! ## Making directories

Directories are made from the top down, each where nothing was found. What is found instead is a
directory, which is left, or a file, at which it ends. -/

/-- Everything is still there. -/
def Keeps (d d' : Disk) : Prop := ∀ p e, d.get? p = some e → d'.get? p = some e

/-- Directories are among the things that are kept. -/
theorem Keeps.keepsDirs (h : Keeps d d') : KeepsDirs d d' := fun p => h p .directory

/-- Nothing is lost if nothing is done. -/
theorem Keeps.refl (d : Disk) : Keeps d d := fun _ _ h => h

/-- And nothing in two steps that lose nothing. -/
theorem Keeps.trans (h : Keeps d d') (h' : Keeps d' d'') : Keeps d d'' :=
  fun p e hp => h' p e (h p e hp)

/-- Taking a free place replaces nothing. -/
theorem keeps_set {e : Entry} (hp : d.get? p = none) : Keeps d (d.set p e) := by
  intro q e' hq
  have hne : q ≠ p := by rintro rfl; rw [hp] at hq; cases hq
  rw [get?_set_of_ne d hne]
  exact hq

/-- A path finds what is at the place that it leads to. So what is said of places can be said of
paths. -/
theorem stat_of_locate (hl : d.locate cwd path = .ok p) :
    d.stat cwd path = (d.get? p).elim (.error .missing) .ok := by
  rw [stat, hl]
  dsimp only
  cases d.get? p <;> rfl

/-- Something is found if there is a place and it holds something. -/
theorem stat_eq_ok_iff {e : Entry} :
    d.stat cwd path = .ok e ↔ ∃ p, d.locate cwd path = .ok p ∧ d.get? p = some e := by
  cases hl : d.locate cwd path with
  | error r => simp [stat, hl]
  | ok p =>
    rw [stat_of_locate hl]
    cases hp : d.get? p <;> simp [hp]

/-- A place that a path leads to without finding anything is free. -/
theorem get?_of_stat {r : Refusal} (hs : d.stat cwd path = .error r)
    (hl : d.locate cwd path = .ok p) : d.get? p = none := by
  cases hp : d.get? p with
  | none => rfl
  | some e =>
    rw [stat_eq_ok_iff.2 ⟨p, hl, hp⟩] at hs
    cases hs

/-- A round passes over a directory that is there, or makes one at a free place. -/
theorem makeEach_cons_eq_ok {rest : List String} (h : d.makeEach cwd (path :: rest) = .ok d') :
    d.makeEach cwd rest = .ok d' ∨
      ∃ p, d.locate cwd path = .ok p ∧ d.get? p = none ∧
      (d.set p .directory).makeEach cwd rest = .ok d' := by
  rw [makeEach] at h
  cases hs : d.stat cwd path with
  | ok e =>
    rw [hs] at h
    cases e with
    | directory => exact .inl h
    | file content => cases h
  | error r =>
    rw [hs] at h
    dsimp only at h
    cases hl : d.locate cwd path with
    | error r' => rw [hl] at h; cases h
    | ok p =>
      rw [hl] at h
      exact .inr ⟨p, rfl, get?_of_stat hs hl, h⟩

/-- By induction on the paths: each round leaves the disk as it is, or takes a free place. -/
theorem keeps_makeEach {paths : List String} (h : d.makeEach cwd paths = .ok d') :
    Keeps d d' := by
  induction paths generalizing d with
  | nil => cases h; exact .refl _
  | cons path rest ih =>
    obtain h | ⟨p, -, hfree, h⟩ := makeEach_cons_eq_ok h
    · exact ih h
    · exact (keeps_set hfree).trans (ih h)

/-- **Making directories takes nothing away.** -/
theorem keeps_makeDirs (h : d.makeDirs cwd path = .ok d') : Keeps d d' := keeps_makeEach h

/-! ## Writing a file

There is nothing in between: the file has its new contents or the write was refused. -/

/-- **Writing puts a file where the path leads**, at a place that held no directory. -/
theorem write_eq_ok {content : Text} (h : d.write cwd path content = .ok d') :
    ∃ p, d.locate cwd path = .ok p ∧ p ≠ [] ∧ d.get? p ≠ some .directory ∧
      d' = d.set p (.file content) := by
  rw [write] at h
  cases hl : d.locate cwd path with
  | error r => rw [hl] at h; cases h
  | ok p =>
    rw [hl] at h
    dsimp only at h
    refine ⟨p, rfl, ?_⟩
    have hdir : d.get? p ≠ some .directory := fun hp => by rw [hp] at h; cases h
    refine ⟨fun hp => hdir (hp ▸ rfl), hdir, ?_⟩
    cases hp : d.get? p with
    | none => rw [hp] at h; cases h; rfl
    | some e =>
      rw [hp] at h
      cases e with
      | directory => exact absurd hp hdir
      | file old => cases h; rfl

/-- A file in place of what was no directory leaves all directories. -/
theorem keepsDirs_set_file (content : Text) (hp : d.get? p ≠ some .directory) :
    KeepsDirs d (d.set p (.file content)) := by
  intro q hq
  have hne : q ≠ p := by rintro rfl; exact hp hq
  rw [get?_set_of_ne d hne]
  exact hq

/-- A file is what can be read. -/
theorem read_eq_ok {content : Text} :
    d.read cwd path = .ok content ↔ d.stat cwd path = .ok (.file content) := by
  rw [read]
  split <;> simp [*]

/-- What is written can be read. -/
theorem read_of_get? {content : Text} (hl : d.locate cwd path = .ok p)
    (hp : d.get? p = some (.file content)) : d.read cwd path = .ok content :=
  read_eq_ok.2 (stat_eq_ok_iff.2 ⟨p, hl, hp⟩)

end Exemplar.Disk
