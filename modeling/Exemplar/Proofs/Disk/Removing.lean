import Exemplar.Proofs.Disk.Storing

/-!
# Removing a file

Removing takes away what is at one place and leaves all others alone, so a path is affected only
if it leads to the place or through it. It leads through it only where a directory was removed,
and a directory is removed like a file if it is empty.

Where a path leads to nothing, more can be said of a file system that is a tree: nothing can be
below a place that is free, so a clean path leads to nothing exactly if its place is free and no
file is in the way. Making directories for another path does not change that.

A place is a list of names, the innermost first, so `p.tail` is the directory that `p` lies in.
A path passes a number of places on its way (`passed`), and these have to be directories for it
to lead to its end. What it leads to depends on the entries at these places and at the end
(`stat_congr`), and on nothing else. So it has only to be asked which of these entries an
operation changes.
-/

namespace Exemplar.Disk

variable {d d' : Disk} {cwd path path' : String} {p q : Place}
  {ns : List String} {content : Text}

/-! ## Places that are visited

A way goes down by one name, or up to where a place lies, or stays. So along a way a place is
always preceded by the one it lies in. -/

/-- Every place on a way lies in one that comes before it, and so does the end. The way starts
behind other places (`front`), for the walk along it is an induction on the names that are
left. -/
theorem tail_mem_passing {front : List Place} (hfront : ∀ q ∈ front, q.tail ∈ front)
    (hp : p.tail ∈ front ∨ p = []) :
    (∀ q ∈ front ++ passing p ns, q.tail ∈ front ++ passing p ns) ∧
      ((ns.foldl step p).tail ∈ front ++ passing p ns ∨ ns.foldl step p = []) := by
  induction ns generalizing front p with
  | nil =>
    rw [passing, List.append_nil]
    exact ⟨hfront, hp⟩
  | cons n rest ih =>
    rw [passing, List.append_cons, List.foldl_cons]
    have hself : p.tail ∈ front ++ [p] := by
      rcases hp with hp | rfl
      · exact List.mem_append_left _ hp
      · exact List.mem_append_right _ List.mem_cons_self
    have hclosed : ∀ q ∈ front ++ [p], q.tail ∈ front ++ [p] := by
      intro q hq
      rcases List.mem_append.1 hq with hq | hq
      · exact List.mem_append_left _ (hfront q hq)
      · rw [List.mem_singleton.1 hq]
        exact hself
    refine ih hclosed ?_
    -- one step stays, goes up or goes down
    unfold step
    split
    · exact .inl hself
    split
    · exact .inl (hclosed _ hself)
    · exact .inl (List.mem_append_right _ List.mem_cons_self)

/-- Every way starts at the root. -/
theorem nil_mem_passed (cwd path : String) : [] ∈ passed cwd path := by
  obtain ⟨n, rest, hnames⟩ := List.exists_cons_of_ne_nil
    (List.append_ne_nil_of_right_ne_nil (lead cwd path) (names_ne_nil path))
  rw [passed_eq_passing, hnames, passing]
  exact List.mem_cons_self

/-- **What a place on a way lies in is on the way, too.** -/
theorem tail_mem_passed (h : q ∈ passed cwd path) : q.tail ∈ passed cwd path := by
  have hfront : ∀ q ∈ ([] : List Place), q.tail ∈ ([] : List Place) :=
    fun _ hq => absurd hq List.not_mem_nil
  rw [passed_eq_passing] at h ⊢
  exact (tail_mem_passing hfront (.inr rfl)).1 q h

/-- **What the end of a way lies in is on the way.** -/
theorem tail_destination_mem_passed (cwd path : String) :
    (destination cwd path).tail ∈ passed cwd path := by
  have hfront : ∀ q ∈ ([] : List Place), q.tail ∈ ([] : List Place) :=
    fun _ hq => absurd hq List.not_mem_nil
  rw [passed_eq_passing, destination_eq_foldl]
  rcases (tail_mem_passing hfront (.inr rfl)).2 with h | h
  · exact h
  · rw [h, ← passed_eq_passing]
    exact nil_mem_passed cwd path

/-! ## Paths that are not affected

Two file systems with the same entries along a way cannot be told apart by it. -/

/-- A walk looks at the places it passes. -/
theorem walk_congr (h : ∀ q ∈ passing p ns, d'.get? q = d.get? q) :
    d'.walk p ns = d.walk p ns := by
  induction ns generalizing p with
  | nil => rfl
  | cons n rest ih =>
    rw [passing, List.forall_mem_cons] at h
    rw [walk_cons, walk_cons, h.1, ih h.2]

/-- **What a path leads to depends on its way and its end only.** -/
theorem stat_congr (h : ∀ q ∈ passed cwd path, d'.get? q = d.get? q)
    (hend : d'.get? (destination cwd path) = d.get? (destination cwd path)) :
    d'.stat cwd path = d.stat cwd path := by
  by_cases hpath : path = ""
  · subst hpath
    rfl
  have hlocate : d'.locate cwd path = d.locate cwd path := by
    rw [passed_eq_passing] at h
    rw [locate_eq_walk d' cwd hpath, locate_eq_walk d cwd hpath, walk_congr h]
  rw [stat, stat, hlocate]
  cases hl : d.locate cwd path with
  | error r => rfl
  | ok p =>
    rw [((locate_eq_ok_iff hpath).1 hl).1]
    dsimp only
    rw [hend]

/-- Reading a path is a matter of what it leads to. -/
theorem read_congr (h : d'.stat cwd path = d.stat cwd path) :
    d'.read cwd path = d.read cwd path := by
  rw [read, read, h]

/-- A path that can be read leads through directories to a file. -/
theorem read_eq_ok_iff : d.read cwd path = .ok content ↔
    path ≠ "" ∧ (∀ q ∈ passed cwd path, d.get? q = some .directory) ∧
      d.get? (destination cwd path) = some (.file content) :=
  read_eq_ok.trans stat_eq_ok_iff_passed

/-! ## Free places

A walk is stopped by a place at which there is nothing, and then the path leads to nothing. It
is refused by a file in the way, which is another outcome. -/

/-- Where no file is in the way, a walk gets to the end or to a free place. -/
theorem walk_of_clear (h : ∀ q ∈ passing p ns, ∀ content, d.get? q ≠ some (.file content)) :
    d.walk p ns = .ok (ns.foldl step p) ∨ d.walk p ns = .error .missing := by
  induction ns generalizing p with
  | nil => exact .inl rfl
  | cons n rest ih =>
    rw [passing, List.forall_mem_cons] at h
    rw [walk_cons]
    cases hp : d.get? p with
    | none => exact .inr rfl
    | some e =>
      cases e with
      | file content => exact absurd hp (h.1 content)
      | directory => exact ih h.2

/-- **A path leads to nothing** if its place is free and no file is in the way. -/
theorem stat_of_clear (h : ∀ q ∈ passed cwd path, ∀ content, d.get? q ≠ some (.file content))
    (hend : d.get? (destination cwd path) = none) : d.stat cwd path = .error .missing := by
  by_cases hpath : path = ""
  · subst hpath
    rfl
  rw [passed_eq_passing] at h
  rw [destination_eq_foldl] at hend
  rw [stat, locate_eq_walk d cwd hpath]
  rcases walk_of_clear h with hw | hw
  · rw [hw]
    dsimp only
    rw [hend]
  · rw [hw]

/-! ## Trees

In a tree, what lies in a directory can be reached from the root through directories. A clean
path goes upwards first, where everything is a directory, and downwards from there, where
everything below a free place is free. So the walk downwards decides. -/

/-- Whatever there is lies in a directory. -/
def IsTree (d : Disk) : Prop := ∀ p, d.get? p ≠ none → d.get? p.tail = some .directory

/-- It is enough to look at the entries that there are. -/
theorem isTree_of_entries (h : ∀ e ∈ d.entries, d.get? e.1.tail = some .directory) :
    d.IsTree := by
  intro p hp
  by_cases hnil : p = []
  · subst hnil
    rfl
  rw [get?, if_neg (by simpa using hnil)] at hp
  obtain ⟨e, he⟩ := Option.ne_none_iff_exists'.1 hp
  obtain ⟨l₁, l₂, hentries, -⟩ := List.lookup_eq_some_iff.1 he
  exact h (p, e) (hentries ▸ List.mem_append_right _ List.mem_cons_self)

/-- A walk along directories goes on from where they lead. -/
theorem walk_append {rest : List String} (h : ∀ q ∈ passing p ns, d.get? q = some .directory) :
    d.walk p (ns ++ rest) = d.walk (ns.foldl step p) rest := by
  induction ns generalizing p with
  | nil => rfl
  | cons n more ih =>
    rw [passing, List.forall_mem_cons] at h
    rw [List.cons_append, walk_cons, h.1]
    exact ih h.2

/-- Upwards from a directory there are directories only. -/
theorem IsTree.directory_of_up (ht : d.IsTree) {ups : List String}
    (hups : ∀ n ∈ ups, ∀ p, step p n = p ∨ step p n = p.tail) (hp : d.get? p = some .directory) :
    (∀ q ∈ passing p ups, d.get? q = some .directory) ∧
      d.get? (ups.foldl step p) = some .directory := by
  induction ups generalizing p with
  | nil => exact ⟨fun _ hq => absurd hq List.not_mem_nil, hp⟩
  | cons n rest ih =>
    rw [List.forall_mem_cons] at hups
    have hnext : d.get? (step p n) = some .directory := by
      rcases hups.1 p with h | h
      · rw [h, hp]
      · rw [h]
        exact ht p (by rw [hp]; exact Option.some_ne_none _)
    obtain ⟨hway, hend⟩ := ih hups.2 hnext
    exact ⟨List.forall_mem_cons.2 ⟨hp, hway⟩, hend⟩

/-- Downwards from a free place there are free places only. -/
theorem IsTree.free_of_down (ht : d.IsTree) {downs : List String}
    (hdowns : ∀ n ∈ downs, ∀ p, step p n = n :: p) (hp : d.get? p = none) :
    (∀ q ∈ passing p downs, d.get? q = none) ∧ d.get? (downs.foldl step p) = none := by
  induction downs generalizing p with
  | nil => exact ⟨fun _ hq => absurd hq List.not_mem_nil, hp⟩
  | cons n rest ih =>
    rw [List.forall_mem_cons] at hdowns
    have hnext : d.get? (step p n) = none := by
      rw [hdowns.1]
      by_contra hne
      exact absurd ((ht _ hne).symm.trans hp) (Option.some_ne_none _)
    obtain ⟨hway, hend⟩ := ih hdowns.2 hnext
    exact ⟨List.forall_mem_cons.2 ⟨hp, hway⟩, hend⟩

/-- A walk downwards that ends with nothing meets no file. -/
theorem IsTree.clear_of_down (ht : d.IsTree) {downs : List String}
    (hdowns : ∀ n ∈ downs, ∀ p, step p n = n :: p)
    (h : d.walk p downs = .error .missing ∨
      d.walk p downs = .ok (downs.foldl step p) ∧ d.get? (downs.foldl step p) = none) :
    (∀ q ∈ passing p downs, ∀ content, d.get? q ≠ some (.file content)) ∧
      d.get? (downs.foldl step p) = none := by
  induction downs generalizing p with
  | nil => exact ⟨fun _ hq => absurd hq List.not_mem_nil, (h.resolve_left nofun).2⟩
  | cons n rest ih =>
    -- What is at the place where the walk downwards starts?
    cases hp : d.get? p with
    | none =>
      obtain ⟨hway, hend⟩ := ht.free_of_down hdowns hp
      exact ⟨fun q hq content hc => (by rw [hway q hq] at hc; cases hc), hend⟩
    | some e =>
      rw [walk_cons, hp] at h
      cases e with
      | file content => exact absurd h (by simp)
      | directory =>
        obtain ⟨hway, hend⟩ := ih (List.forall_mem_cons.1 hdowns).2 h
        exact ⟨List.forall_mem_cons.2
          ⟨fun content hc => (by rw [hp] at hc; cases hc), hway⟩, hend⟩

/-- A clean path goes up before it goes down. Its names are those of a neat stack. The steps
upwards come first, together with the empty name in front of a rooted path, and the rest are
names. -/
theorem IsClean.exists_names (h : IsClean path) :
    ∃ ups downs, names path = ups ++ downs ∧
      (∀ n ∈ ups, ∀ p, step p n = p ∨ step p n = p.tail) ∧
      ∀ n ∈ downs, ∀ p, step p n = n :: p := by
  obtain ⟨stack, hneat, hpath, -⟩ := h.exists_stack
  have hstay : ∀ p, step p (String.ofList []) = p ∨ step p (String.ofList []) = p.tail :=
    fun _ => .inl rfl
  have habove : ∀ p, step p (String.ofList Path.above) = p ∨
      step p (String.ofList Path.above) = p.tail := fun _ => .inr rfl
  rw [names, hpath]
  generalize Path.isAbsolute path = rooted at hneat
  by_cases hne : stack = []
  · -- Only the root, or the directory itself, has no names.
    subst hne
    refine ⟨_, [], (List.append_nil _).symm, ?_, fun _ hn => absurd hn List.not_mem_nil⟩
    rw [Path.segments_ofStack_nil]
    cases rooted with
    | true => exact List.forall_mem_cons.2 ⟨hstay, List.forall_mem_singleton.2 hstay⟩
    | false => exact List.forall_mem_singleton.2 fun _ => .inl rfl
  · -- The steps upwards stand at the bottom of the stack.
    obtain ⟨ups, downs, hsplit, hups, hdowns⟩ := hneat.exists_split
    rw [hneat.segments_ofStack hne, hsplit, List.map_append,
      List.map_append, ← List.append_assoc]
    refine ⟨_, _, rfl, List.forall_mem_append.2 ⟨?_, ?_⟩, ?_⟩
    · cases rooted with
      | true => exact List.forall_mem_singleton.2 hstay
      | false => exact fun _ hn => absurd hn List.not_mem_nil
    · intro n hn
      obtain ⟨s, hs, rfl⟩ := List.mem_map.1 hn
      rw [hups s hs]
      exact habove
    · intro n hn
      obtain ⟨s, hs, rfl⟩ := List.mem_map.1 hn
      exact step_of_isName (by rw [String.toList_ofList]; exact hdowns s hs)

/-- **In a tree, a clean path that leads to nothing has no file in its way, and its place is
free.** Upwards from the working directory there are directories only, so these steps are taken.
Were there a file further down, the path would be refused and not missing. -/
theorem IsTree.clear_of_stat (ht : d.IsTree) (hclean : IsClean path)
    (hstart : ∀ q ∈ standing cwd path, d.get? q = some .directory)
    (h : d.stat cwd path = .error .missing) :
    (∀ q ∈ passed cwd path, ∀ content, d.get? q ≠ some (.file content)) ∧
      d.get? (destination cwd path) = none := by
  obtain ⟨ups, downs, hnames, hups, hdowns⟩ := hclean.exists_names
  rw [standing, List.forall_mem_append, List.forall_mem_singleton] at hstart
  obtain ⟨hlead, hbase⟩ := hstart
  obtain ⟨hclimb, -⟩ := ht.directory_of_up hups hbase
  have hdirs : ∀ q ∈ passing [] (lead cwd path ++ ups), d.get? q = some .directory := by
    rw [passing_append]
    exact List.forall_mem_append.2 ⟨hlead, hclimb⟩
  have hend : destination cwd path
      = downs.foldl step ((lead cwd path ++ ups).foldl step []) := by
    rw [destination_eq_foldl, hnames, ← List.append_assoc, List.foldl_append]
  -- what decides is the walk downwards
  have hdown : d.locate cwd path = d.walk ((lead cwd path ++ ups).foldl step []) downs := by
    rw [locate_eq_walk d cwd hclean.ne_empty, hnames, ← List.append_assoc, walk_append hdirs]
  obtain ⟨hway, hfree⟩ := ht.clear_of_down hdowns (p := (lead cwd path ++ ups).foldl step []) (by
    rw [← hdown, ← hend]
    rw [stat] at h
    cases hl : d.locate cwd path with
    | error r =>
      rw [hl] at h
      cases h
      exact .inl rfl
    | ok p =>
      obtain ⟨rfl, -⟩ := (locate_eq_ok_iff hclean.ne_empty).1 hl
      rw [hl] at h
      dsimp only at h
      cases hget : d.get? (destination cwd path) with
      | none => exact .inr ⟨rfl, rfl⟩
      | some e => rw [hget] at h; cases h)
  rw [passed_eq_passing, hnames, ← List.append_assoc, passing_append]
  refine ⟨List.forall_mem_append.2 ⟨fun q hq content hc => ?_, hway⟩, by rw [hend, hfree]⟩
  rw [hdirs q hq] at hc
  cases hc

/-- Downwards each name is put on top of the place. -/
theorem foldl_step_of_down {downs : List String} (hdowns : ∀ n ∈ downs, ∀ p, step p n = n :: p) :
    downs.foldl step p = downs.reverse ++ p := by
  induction downs generalizing p with
  | nil => rfl
  | cons n rest ih =>
    rw [List.forall_mem_cons] at hdowns
    rw [List.foldl_cons, hdowns.1, ih hdowns.2, List.reverse_cons, List.append_assoc]
    rfl

/-- Downwards, every place on the way is nearer to the root than the end. -/
theorem length_lt_of_down {downs : List String} (hdowns : ∀ n ∈ downs, ∀ p, step p n = n :: p)
    (hq : q ∈ passing p downs) : q.length < (downs.foldl step p).length := by
  induction downs generalizing p with
  | nil => exact absurd hq List.not_mem_nil
  | cons n rest ih =>
    rw [passing, List.mem_cons] at hq
    rcases hq with rfl | hq
    · rw [foldl_step_of_down hdowns, List.length_append, List.length_reverse, List.length_cons]
      omega
    · exact ih (List.forall_mem_cons.1 hdowns).2 hq

/-- **A clean path leads through directories, and then downwards.** So no place on the way is
the end, unless it is a directory. -/
theorem IsTree.directory_or_length_lt (ht : d.IsTree) (hclean : IsClean path)
    (hstart : ∀ q ∈ standing cwd path, d.get? q = some .directory) (hq : q ∈ passed cwd path) :
    d.get? q = some .directory ∨ q.length < (destination cwd path).length := by
  obtain ⟨ups, downs, hnames, hups, hdowns⟩ := hclean.exists_names
  rw [standing, List.forall_mem_append, List.forall_mem_singleton] at hstart
  obtain ⟨hclimb, -⟩ := ht.directory_of_up hups hstart.2
  rw [passed, hnames, passing_append, List.mem_append, List.mem_append] at hq
  rw [destination, hnames, List.foldl_append]
  rcases hq with hq | hq | hq
  · exact .inl (hstart.1 q hq)
  · exact .inl (hclimb q hq)
  · exact .inr (length_lt_of_down hdowns hq)

/-! ## Trees after storing

A file is stored where a path leads, and directories are made on the way to it. -/

/-- A tree stays one: the places on the way are directories now, and each lies in one that is on
the way as well. -/
theorem Stored.isTree (h : Stored d d' cwd path content)
    (hroom : Room d cwd path) (ht : d.IsTree) :
    d'.IsTree := by
  intro q hq
  by_cases hend : q = destination cwd path
  · rw [hend]
    exact h.directory _ (tail_destination_mem_passed cwd path)
  by_cases hway : q ∈ passed cwd path
  · exact h.directory _ (tail_mem_passed hway)
  · rw [h.kept q hend hway] at hq
    exact h.of_directory hroom.free (ht q hq)

/-- **A file that can be read still can**, with the same content, if another was stored. The
places on its way were directories and still are. -/
theorem Stored.read_of_ne (h : Stored d d' cwd path content) (hroom : Room d cwd path)
    (hne : destination cwd path' ≠ destination cwd path) {content' : Text}
    (hread : d.read cwd path' = .ok content') : d'.read cwd path' = .ok content' := by
  obtain ⟨hpath, hway, hget⟩ := read_eq_ok_iff.1 hread
  refine read_eq_ok_iff.2 ⟨hpath, fun q hq => h.of_directory hroom.free (hway q hq), ?_⟩
  rw [h.kept _ hne fun hmem => hroom.clear _ hmem content' hget, hget]

/-- **A path that leads to nothing still does**, if a file was stored for which one starts alike
and neither is on the way to the other. Its own place is free as before, since it is not on the
way of the other path, and no file has been put on its way. -/
theorem Stored.stat_of_missing (h : Stored d d' cwd path content) (hroom : Room d cwd path)
    (ht : d.IsTree) (hclean : IsClean path') (hstart : standing cwd path' = standing cwd path)
    (hne : destination cwd path' ≠ destination cwd path)
    (hway : destination cwd path ∉ passed cwd path')
    (hway' : destination cwd path' ∉ passed cwd path)
    (hstat : d.stat cwd path' = .error .missing) :
    d'.stat cwd path' = .error .missing := by
  obtain ⟨hclear, hfree⟩ := ht.clear_of_stat hclean (hstart ▸ hroom.start) hstat
  refine stat_of_clear (fun q hq c hc => ?_) (by rw [h.kept _ hne hway', hfree])
  have hq' : q ≠ destination cwd path := by
    rintro rfl
    exact hway hq
  by_cases hmem : q ∈ passed cwd path
  · rw [h.directory q hmem] at hc
    cases hc
  · rw [h.kept q hq' hmem] at hc
    exact hclear q hq c hc

/-! ## Removing

A file is taken away, or a directory in which nothing lies. -/

/-- A file system from which a file or an empty directory was removed where a path leads. -/
structure Removed (d d' : Disk) (cwd path : String) : Prop where
  /-- The places on its way are directories. -/
  directory : ∀ q ∈ passed cwd path, d.get? q = some .directory
  /-- Nothing lies in a directory at the place. -/
  leaf : d.get? (destination cwd path) = some .directory →
    ∀ q, q ≠ [] → q.tail = destination cwd path → d.get? q = none
  /-- Its place has been cleared. -/
  erased : d' = d.erase (destination cwd path)

/-- If a place has no children, there is nothing in it. -/
theorem get?_of_hasChildren_false (h : d.hasChildren p = false)
    (hq : q ≠ []) (htail : q.tail = p) :
    d.get? q = none := by
  rw [get?, if_neg (by simpa using hq), List.lookup_eq_none_iff]
  intro e he
  rw [hasChildren, List.any_eq_false] at h
  have hchild := h e he
  rw [bne_iff_ne]
  rintro rfl
  exact hchild (by simp [hq, htail])

/-- Removing succeeds for a file and for an empty directory, and what it does is the same for
both. -/
theorem removed_of_remove (h : d.remove cwd path = .ok d') : Removed d d' cwd path := by
  rw [remove] at h
  cases hl : d.locate cwd path with
  | error r => rw [hl] at h; cases h
  | ok p =>
    obtain ⟨-, rfl, hway⟩ := passed_of_locate hl
    rw [hl] at h
    dsimp only at h
    -- A file is removed, a directory only if nothing is in it.
    cases hget : d.get? (destination cwd path) with
    | none => rw [hget] at h; cases h
    | some e =>
      rw [hget] at h
      cases e with
      | file content =>
        cases h
        exact ⟨hway, fun hdir => (by rw [hget] at hdir; cases hdir), rfl⟩
      | directory =>
        dsimp only at h
        split at h
        · cases h
        · rename_i hchildren
          cases h
          exact ⟨hway, fun _ q hq htail =>
            get?_of_hasChildren_false (Bool.eq_false_iff.2 hchildren) hq htail, rfl⟩

/-- There is nothing to remove exactly where a path leads to nothing. -/
theorem remove_eq_missing_iff :
    d.remove cwd path = .error .missing ↔ d.stat cwd path = .error .missing := by
  rw [remove, stat]
  cases d.locate cwd path with
  | error r => simp
  | ok p =>
    dsimp only
    cases d.get? p with
    | none => simp
    | some e =>
      cases e with
      | file content => simp
      | directory =>
        dsimp only
        split <;> simp

/-- All other places are left alone. -/
theorem Removed.kept (h : Removed d d' cwd path) (hq : q ≠ destination cwd path) :
    d'.get? q = d.get? q := by
  rw [h.erased, get?_erase_of_ne d hq]

/-- **What was removed cannot be read.** The root cannot be removed, but it is a directory. -/
theorem Removed.read_ne_ok (h : Removed d d' cwd path) (content : Text) :
    d'.read cwd path ≠ .ok content := by
  intro hread
  obtain ⟨-, -, hget⟩ := read_eq_ok_iff.1 hread
  by_cases hroot : destination cwd path = []
  · rw [hroot] at hget
    cases hget
  · rw [h.erased, get?_erase_self d hroot] at hget
    cases hget

/-- **Where something was removed, a path leads to nothing.** -/
theorem Removed.stat (h : Removed d d' cwd path) (hroot : destination cwd path ≠ []) :
    d'.stat cwd path = .error .missing := by
  have hend : d'.get? (destination cwd path) = none := by rw [h.erased, get?_erase_self d hroot]
  refine stat_of_clear (fun q hq c hc => ?_) hend
  by_cases hne : q = destination cwd path
  · rw [hne, hend] at hc
    cases hc
  · rw [h.kept hne, h.directory q hq] at hc
    cases hc

/-- **Paths that do not lead to the place or through it lead where they led.** Neither the
places on their way nor their end has changed. -/
theorem Removed.stat_of_ne (h : Removed d d' cwd path)
    (hne : destination cwd path' ≠ destination cwd path)
    (hway : destination cwd path ∉ passed cwd path') :
    d'.stat cwd path' = d.stat cwd path' := by
  refine stat_congr (fun q hq => h.kept ?_) (h.kept hne)
  rintro rfl
  exact hway hq

/-- A tree stays one: if a directory was removed, there was nothing in it. -/
theorem Removed.isTree (h : Removed d d' cwd path) (ht : d.IsTree) : d'.IsTree := by
  intro q hq
  by_cases hnil : q = []
  · subst hnil
    rfl
  have hend : q ≠ destination cwd path := by
    rintro rfl
    rw [h.erased, get?_erase_self d hnil] at hq
    exact hq rfl
  rw [h.kept hend] at hq
  have hdir := ht q hq
  by_cases htail : q.tail = destination cwd path
  · rw [htail] at hdir
    exact absurd (h.leaf hdir q hnil htail) hq
  · rw [h.kept htail, hdir]

end Exemplar.Disk
