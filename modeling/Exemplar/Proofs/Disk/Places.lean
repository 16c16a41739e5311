import Exemplar.Proofs.Disk.Writing
import Exemplar.Proofs.Path.Cleaning

/-!
# Where paths lead

The names of a path alone say where it leads and which places it leads through; the file system
only says whether one gets there. A path is followed to its end exactly if all the places it
leads through are directories. So what becomes of a path when the file system changes is a
question about places: the one it leads to, and the ones on its way.

Cleaning a path takes names out of it that are followed by `..`, and the places behind them are
no longer passed. So a clean path may lead somewhere where the path it came from does not. Where
it leads, though, is the same: a name and the step back from it cancel out
(`destination_clean`). The stack that cleaning works with holds the names of the way down, so
that pushing a name is taking a step and popping one is going up again.

A clean path has a second use. The way to it goes through its directory and the places that lead
to that, which is just where directories are made before something is written
(`IsClean.mem_passed_iff`).
-/

namespace Exemplar.Disk

variable {d d' : Disk} {cwd path : String} {p q : Place} {ns : List String}

/-! ## Ways

Names are followed from place to place. What is asked of the file system is that each place from
which a step is taken is a directory; the last one that is reached may be anything, or
nothing. -/

/-- The places from which a step is taken when names are followed. -/
def passing : Place → List String → List Place
  | _, [] => []
  | p, n :: rest => p :: passing (step p n) rest

/-- The places that are reached when names are followed, one for each name. -/
def stops : Place → List String → List Place
  | _, [] => []
  | p, n :: rest => step p n :: stops (step p n) rest

/-- The way of some names is that of the first of them and, from where they lead, that of the
others. -/
theorem passing_append (p : Place) (ns rest : List String) :
    passing p (ns ++ rest) = passing p ns ++ passing (ns.foldl step p) rest := by
  induction ns generalizing p with
  | nil => rfl
  | cons n ns ih => rw [List.cons_append, passing, ih]; rfl

/-- A place is passed on the way to a last name exactly if it is the start or was reached
before. -/
theorem passing_concat (p : Place) (ns : List String) (n : String) :
    passing p (ns ++ [n]) = p :: stops p ns := by
  induction ns generalizing p with
  | nil => rfl
  | cons m ns ih => rw [List.cons_append, passing, ih, stops]

/-- **Names are followed to the end exactly if all places on the way are directories.** By
induction on the names: one step asks for the directory it is taken from, and the rest is
followed from where it leads. -/
theorem walk_eq_ok_iff :
    d.walk p ns = .ok q ↔
      q = ns.foldl step p ∧ ∀ x ∈ passing p ns, d.get? x = some .directory := by
  induction ns generalizing p with
  | nil =>
    rw [walk]
    exact ⟨fun h => ⟨(Except.ok.inj h).symm, fun _ hx => absurd hx List.not_mem_nil⟩,
      fun h => by rw [h.1]; rfl⟩
  | cons n rest ih =>
    rw [passing, List.forall_mem_cons, List.foldl_cons]
    constructor
    · intro h
      obtain ⟨hp, h⟩ := walk_cons_eq_ok h
      obtain ⟨hq, hrest⟩ := ih.1 h
      exact ⟨hq, hp, hrest⟩
    · rintro ⟨hq, hp, hrest⟩
      rw [walk_cons, hp]
      exact ih.2 ⟨hq, hrest⟩

/-! ## Paths

A relative path has the names of the current directory in front of its own, an absolute one has
nothing. -/

/-- The names that are followed, from the root on, before the names of a path. -/
def lead (cwd path : String) : List String := if Path.isAbsolute path then [] else names cwd

/-- The place the names of a path are followed from. -/
def base (cwd path : String) : Place := (lead cwd path).foldl step []

/-- The place a path leads to. -/
def destination (cwd path : String) : Place := (names path).foldl step (base cwd path)

/-- The places that have to be directories before the first name of a path is followed. -/
def standing (cwd path : String) : List Place :=
  passing [] (lead cwd path) ++ [base cwd path]

/-- The places a path leads through. -/
def passed (cwd path : String) : List Place :=
  passing [] (lead cwd path) ++ passing (base cwd path) (names path)

/-- Every path has a name, if only an empty one. -/
theorem names_ne_nil (path : String) : names path ≠ [] := by
  rw [names, ne_eq, List.map_eq_nil_iff]
  exact Path.segments_ne_nil _

/-- Locating a path is following its names from the root. -/
theorem locate_eq_walk (d : Disk) (cwd : String) (hpath : path ≠ "") :
    d.locate cwd path = d.walk [] (lead cwd path ++ names path) := by
  have hempty : ¬ path.isEmpty = true := fun h => hpath (String.isEmpty_iff.1 h)
  rw [locate, if_neg hempty, lead]
  split
  · rfl
  · exact congrArg (d.walk []) (names_append_slash cwd path)

/-- The way of a path is that of all its names. -/
theorem passed_eq_passing (cwd path : String) :
    passed cwd path = passing [] (lead cwd path ++ names path) := by
  rw [passed, passing_append, base]

/-- And so is its end. -/
theorem destination_eq_foldl (cwd path : String) :
    destination cwd path = (lead cwd path ++ names path).foldl step [] := by
  rw [destination, base, List.foldl_append]

/-- **A path leads to its place exactly if all places on its way are directories.** -/
theorem locate_eq_ok_iff (hpath : path ≠ "") :
    d.locate cwd path = .ok p ↔
      p = destination cwd path ∧ ∀ q ∈ passed cwd path, d.get? q = some .directory := by
  rw [locate_eq_walk d cwd hpath, walk_eq_ok_iff, destination_eq_foldl, passed_eq_passing]

/-- A path that leads somewhere leads to its place, through directories. -/
theorem passed_of_locate (hl : d.locate cwd path = .ok p) :
    path ≠ "" ∧ p = destination cwd path ∧
    ∀ q ∈ passed cwd path, d.get? q = some .directory := by
  have hpath : path ≠ "" := by
    rintro rfl
    cases hl
  exact ⟨hpath, (locate_eq_ok_iff hpath).1 hl⟩

/-- What is at the end of a way all of whose places are directories. -/
theorem stat_of_passed (hpath : path ≠ "")
    (h : ∀ q ∈ passed cwd path, d.get? q = some .directory) :
    d.stat cwd path = (d.get? (destination cwd path)).elim (.error .missing) .ok :=
  stat_of_locate ((locate_eq_ok_iff hpath).2 ⟨rfl, h⟩)

/-- A path finds something exactly if it leads there through directories. -/
theorem stat_eq_ok_iff_passed {e : Entry} : d.stat cwd path = .ok e ↔
    path ≠ "" ∧ (∀ q ∈ passed cwd path, d.get? q = some .directory) ∧
      d.get? (destination cwd path) = some e := by
  rw [stat_eq_ok_iff]
  constructor
  · rintro ⟨p, hl, hp⟩
    obtain ⟨hpath, rfl, hway⟩ := passed_of_locate hl
    exact ⟨hpath, hway, hp⟩
  · rintro ⟨hpath, hway, hp⟩
    exact ⟨_, (locate_eq_ok_iff hpath).2 ⟨rfl, hway⟩, hp⟩

/-! ## Clean paths

Cleaning leaves a stack of names that are neither empty nor `.`, with `..` only at the bottom of
a relative path. The directory of such a path is what is below the top. -/

/-- A path that cleaning gave. -/
def IsClean (path : String) : Prop := ∃ p : List Char, path.toList = Path.cleanChars p

/-- Joining cleans. -/
theorem isClean_join {dir : String} (hdir : dir ≠ "") (n : String) :
    IsClean (Path.join dir n) := by
  have hempty : ¬ dir.isEmpty = true := fun h => hdir (String.isEmpty_iff.1 h)
  exact ⟨(dir ++ "/" ++ n).toList,
    by rw [Path.join, if_neg hempty, Path.clean, String.toList_ofList]⟩

/-- What is joined is absolute if its first part is. -/
theorem isAbsolute_join {dir : String} (hdir : dir ≠ "") (n : String) :
    Path.isAbsolute (Path.join dir n) = Path.isAbsolute dir := by
  have hempty : ¬ dir.isEmpty = true := fun h => hdir (String.isEmpty_iff.1 h)
  have hne : dir.toList ≠ [] := fun h => hdir (String.toList_eq_nil_iff.1 h)
  obtain ⟨c, rest, hc⟩ := List.exists_cons_of_ne_nil hne
  rw [Path.join, if_neg hempty, Path.isAbsolute, Path.isAbsolute,
    Path.clean, String.toList_ofList, Path.isRooted_cleanChars, String.toList_append,
    String.toList_append, hc]
  rfl

/-- A clean path is made of a neat stack, and its directory of what lies below the top. -/
theorem IsClean.exists_stack (h : IsClean path) :
    ∃ stack, Path.Neat (Path.isAbsolute path) stack ∧
      path.toList = Path.ofStack (Path.isAbsolute path) stack ∧
      (Path.dir path).toList = Path.ofStack (Path.isAbsolute path) stack.tail := by
  obtain ⟨p, hp⟩ := h
  obtain ⟨stack, hneat, heq⟩ := Path.exists_neat_of_clean p
  have hrooted : Path.isAbsolute path = Path.isRooted p := by
    rw [Path.isAbsolute, hp, Path.isRooted_cleanChars]
  rw [hrooted]
  refine ⟨stack, hneat, hp.trans heq, ?_⟩
  rw [Path.dir, String.toList_ofList, hp, heq, hneat.cleanChars_upToSlash]

/-- A clean path has something in it: cleaning writes `.` for an empty stack. -/
theorem IsClean.ne_empty (h : IsClean path) : path ≠ "" := by
  rintro rfl
  obtain ⟨stack, hneat, hpath, -⟩ := h.exists_stack
  replace hneat : Path.Neat false stack := hneat
  have hsegments : Path.segments (Path.ofStack false stack) = [[]] := by
    rw [← show ("" : String).toList = Path.ofStack false stack from hpath]; rfl
  by_cases hne : stack = []
  · subst hne
    cases hsegments
  · rw [hneat.segments_ofStack hne] at hsegments
    replace hsegments : stack.reverse = [[]] := hsegments
    exact hneat.ne_nil [] (List.mem_reverse.1 (hsegments ▸ List.mem_cons_self)) rfl

/-- The directory of a clean path is absolute if the path is. -/
theorem IsClean.isAbsolute_dir (h : IsClean path) :
    Path.isAbsolute (Path.dir path) = Path.isAbsolute path := by
  obtain ⟨stack, hneat, hpath, hdir⟩ := h.exists_stack
  have htail : Path.Neat (Path.isAbsolute path) stack.tail := by
    cases stack with
    | nil => exact hneat
    | cons top rest => exact hneat.2
  rw [Path.isAbsolute, hdir, htail.isRooted_ofStack]

/-- **A clean path leads through the places that its directory leads to**, name by name. -/
theorem IsClean.mem_passed_iff (h : IsClean path) :
    q ∈ passed cwd path ↔
      q ∈ standing cwd path ∨ q ∈ stops (base cwd path) (names (Path.dir path)) := by
  obtain ⟨stack, hneat, hpath, hdir⟩ := h.exists_stack
  have hbase : Path.isAbsolute path = true → base cwd path = [] := fun habs => by
    rw [base, lead, if_pos habs]; rfl
  rw [passed, standing, names, names, hpath, hdir]
  generalize Path.isAbsolute path = rooted at hneat hbase
  -- A stack with nothing below its top is one of the paths `/`, `.` and a name alone.
  cases stack with
  | nil =>
    rw [List.tail_nil, Path.segments_ofStack_nil]
    cases rooted with
    | true => rw [hbase rfl]; simp [passing, stops, step]
    | false => simp [passing, stops, step, Path.here]
  | cons top rest =>
    rw [List.tail_cons, hneat.segments_ofStack (List.cons_ne_nil _ _)]
    by_cases hrest : rest = []
    · subst hrest
      rw [Path.segments_ofStack_nil]
      cases rooted with
      | true => rw [hbase rfl]; simp [passing, stops, step]
      | false => simp [passing, stops, step, Path.here]
    · rw [hneat.2.segments_ofStack hrest, List.reverse_cons,
        ← List.append_assoc, List.map_append, List.map_singleton, passing_concat,
        List.mem_append, List.mem_append, List.mem_cons, List.mem_singleton, or_assoc]

/-! ## Cleaning does not change where a path leads

While the names of a path are put on the stack, the place of the stack is where the names so far
lead. Only names of the way down are taken back, and above the root there is the root again, so
no step is lost. -/

/-- The place that the names of a stack lead to. -/
def placeOfStack (p : Place) (stack : List (List Char)) : Place :=
  (stack.reverse.map String.ofList).foldl step p

/-- A name on top of a stack is one more step. -/
theorem placeOfStack_cons (p : Place) (top : List Char) (rest : List (List Char)) :
    placeOfStack p (top :: rest) = step (placeOfStack p rest) (String.ofList top) := by
  rw [placeOfStack, List.reverse_cons, List.map_append, List.foldl_append]
  rfl

/-- Following a name on a stack is taking a step from its place. -/
theorem placeOfStack_follow {rooted : Bool} {stack : List (List Char)}
    (hroot : rooted = true → p = [])
    (hneat : Path.Neat rooted stack) (name : List Char) :
    placeOfStack p (Path.follow rooted stack name)
      = step (placeOfStack p stack) (String.ofList name) := by
  unfold Path.follow
  split
  · -- An empty name and a point stay.
    rename_i hstay
    rw [Bool.or_eq_true, List.isEmpty_iff, beq_iff_eq] at hstay
    rcases hstay with rfl | rfl <;> rfl
  split
  · -- Two points lead up, and at the root they stay.
    rename_i habove
    obtain rfl := beq_iff_eq.1 habove
    cases stack with
    | nil =>
      cases rooted with
      | true => rw [hroot rfl]; rfl
      | false => rfl
    | cons top rest =>
      dsimp only
      split
      · rename_i htop
        obtain rfl := beq_iff_eq.1 htop
        exact placeOfStack_cons _ _ _
      · -- a name is taken back
        rename_i htop
        have hname := hneat.1.resolve_right fun h => htop (beq_iff_eq.2 h.2.1)
        rw [placeOfStack_cons,
          step_of_isName (n := String.ofList top) (by rwa [String.toList_ofList])]
        rfl
  · exact placeOfStack_cons _ _ _

/-- All names of a path, one after the other. -/
theorem placeOfStack_foldl {rooted : Bool} {stack names : List (List Char)}
    (hroot : rooted = true → p = [])
    (hneat : Path.Neat rooted stack) (hslash : ∀ s ∈ names, '/' ∉ s) :
    placeOfStack p (names.foldl (Path.follow rooted) stack) =
      (names.map String.ofList).foldl step (placeOfStack p stack) := by
  induction names generalizing stack with
  | nil => rfl
  | cons name rest ih =>
    rw [List.forall_mem_cons] at hslash
    rw [List.foldl_cons, ih (hneat.follow hslash.1) hslash.2, placeOfStack_follow hroot hneat]
    rfl

/-- **A clean path leads where the path leads that it came from.** -/
theorem destination_clean (cwd path : String) :
    destination cwd (Path.clean path) = destination cwd path := by
  have hclean : (Path.clean path).toList = Path.cleanChars path.toList := by
    rw [Path.clean, String.toList_ofList]
  have hrooted : Path.isAbsolute (Path.clean path) = Path.isAbsolute path := by
    rw [Path.isAbsolute, hclean, Path.isRooted_cleanChars, Path.isAbsolute]
  have hbase : base cwd (Path.clean path) = base cwd path := by
    rw [base, base, lead, lead, hrooted]
  have hroot : Path.isRooted path.toList = true → base cwd path = [] := fun h => by
    rw [base, lead, Path.isAbsolute, if_pos h]
    rfl
  rw [destination, destination, hbase, names, names, hclean, Path.cleanChars_eq_ofStack]
  have hfold := placeOfStack_foldl hroot (show Path.Neat _ [] from trivial) fun s hs =>
    Path.slash_notMem_segments (p := path.toList) hs
  have hneat : Path.Neat (Path.isRooted path.toList)
      ((Path.segments path.toList).foldl (Path.follow (Path.isRooted path.toList)) []) :=
    Path.neat_foldl (show Path.Neat _ [] from trivial) fun _ hs => Path.slash_notMem_segments hs
  refine Eq.trans ?_ hfold
  generalize (Path.segments path.toList).foldl
    (Path.follow (Path.isRooted path.toList)) [] = stack
    at hneat
  -- the names in front of those of the stack, if any, lead nowhere
  by_cases hne : stack = []
  · subst hne
    rw [Path.segments_ofStack_nil]
    cases Path.isRooted path.toList <;> rfl
  · rw [hneat.segments_ofStack hne, List.map_append, List.foldl_append]
    cases Path.isRooted path.toList <;> rfl

/-- **A name joined to a directory leads to a place in the directory.** -/
theorem destination_join {dir n : String} (hdir : dir ≠ "")
    (hn : Path.IsName n.toList) (cwd : String) :
    destination cwd (Path.join dir n) = n :: destination cwd dir := by
  have hempty : ¬ dir.isEmpty = true := fun h => hdir (String.isEmpty_iff.1 h)
  obtain ⟨c, rest, hc⟩ := List.exists_cons_of_ne_nil (mt String.toList_eq_nil_iff.1 hdir)
  have habs : Path.isAbsolute (dir ++ "/" ++ n) = Path.isAbsolute dir := by
    rw [Path.isAbsolute, Path.isAbsolute, String.toList_append, String.toList_append, hc]
    rfl
  have hname : names n = [n] := by
    rw [names, Path.segments_of_notMem hn.slash, List.map_singleton, String.ofList_toList]
  rw [Path.join, if_neg hempty, destination_clean, destination, base, lead, habs,
    names_append_slash, hname, List.foldl_append]
  exact step_of_isName hn _

/-! ## The last name of a path

Backups are written to the path of a file with something put behind it. Where that leads is a
question about the last name alone, which may be empty or `..`: then what is put behind makes it
another name, and the step is taken all the same from the place that the other names lead to. -/

/-- **What is written behind a path belongs to its last name.** The way there is the same, and
it leads through the directory of the path. -/
theorem exists_lastName (cwd path : String) : ∃ parent n, parent ∈ passed cwd path ∧
    destination cwd (Path.dir path) = parent ∧
    ∀ s : String, '/' ∉ s.toList → passed cwd (path ++ s) = passed cwd path ∧
      destination cwd (path ++ s) = step parent (n ++ s) := by
  obtain ⟨front, n, hsegments, hup⟩ := Path.segments_upToSlash path.toList
  -- The names before the last one are the same for the path and for the path with more behind
  -- it.
  have hlead : ∀ {p : String} {last : List Char}, Path.segments p.toList = front ++ [last] →
      (Path.isAbsolute p = true ↔ ∃ more, front = [] :: more) := by
    intro p last hp
    rw [Path.isAbsolute, Path.isRooted_iff, hp]
    constructor
    · rintro ⟨more, hmore, h⟩
      obtain ⟨-, h⟩ | ⟨front', h, -⟩ := List.append_eq_cons_iff.1 h
      · exact absurd (List.cons.inj h).2.symm hmore
      · exact ⟨front', h⟩
    · rintro ⟨more, rfl⟩
      exact ⟨more ++ [last], by simp, rfl⟩
  have hsame : ∀ {p : String} {last : List Char}, Path.segments p.toList = front ++ [last] →
      lead cwd p = lead cwd path := fun hp => by
    rw [lead, lead, Bool.eq_iff_iff.2 ((hlead hp).trans (hlead hsegments).symm)]
  have hnames : ∀ {p : String} {last : List Char}, Path.segments p.toList = front ++ [last] →
      names p = front.map String.ofList ++ [String.ofList last] := fun hp => by
    rw [names, hp, List.map_append, List.map_singleton]
  refine ⟨(front.map String.ofList).foldl step (base cwd path),
    String.ofList n, ?_, ?_, fun s hs => ?_⟩
  · rw [passed, hnames hsegments, passing_append]
    exact List.mem_append_right _ (List.mem_append_right _ List.mem_cons_self)
  · have hdir : Path.dir path = Path.clean (String.ofList (Path.upToSlash path.toList)) := by
      rw [Path.dir, Path.clean, String.toList_ofList]
    have hp : Path.segments (String.ofList (Path.upToSlash path.toList)).toList
        = front ++ [[]] := by
      rw [String.toList_ofList, hup]
    rw [hdir, destination_clean, destination, base, base, hsame hp, hnames hp, List.foldl_append]
    rfl
  · have hp : Path.segments (path ++ s).toList = front ++ [n ++ s.toList] := by
      rw [String.toList_append, Path.segments_append_of_notMem hs hsegments]
    have hn : String.ofList (n ++ s.toList) = String.ofList n ++ s := by
      rw [String.ofList_append, String.ofList_toList]
    rw [passed, passed, destination, base, base, hsame hp, hnames hp, hnames hsegments, hn,
      passing_append, passing_append, List.foldl_append]
    exact ⟨rfl, rfl⟩

end Exemplar.Disk
