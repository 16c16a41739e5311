import Exemplar.Proofs.Disk.Places

/-!
# Storing a file with its directories

A file is stored by making the directories of its path and writing it. When this succeeds, and
what it leaves, can be said in terms of places: there has to be room for it (`Room`), and
afterwards the place of the file holds it, the places on its way are directories, and every
other place is as it was (`Stored`). Neither side mentions in which order the directories are
made.

Directories are made by following longer and longer beginnings of the path, each from the start.
The beginning that comes next leads through the places that were made before, so it is found,
and the directory is made at its end if nothing is there. That a beginning is a path that starts
where the whole does is not clear at the outset: an empty beginning is no path, and one that is
taken from an absolute path starts at the root only because its first name is empty
(`StartFrom`).

Two files can be stored one after the other in either order with the same outcome, unless one of
them is on the way to the other. What the second needs is room on the disk that the first left
(`Stored.room_iff`).
-/

namespace Exemplar.Disk

variable {d d' made : Disk} {cwd path : String} {q : Place} {content : Text}

/-! ## Making the directories of a path

By induction on the names that are left. What is known at each step is that the places behind
the names that are done are directories. -/

/-- A file system with directories made at some places. No file was in the way of them. -/
structure Furnished (d made : Disk) (places : List Place) : Prop where
  /-- There was no file at the places. -/
  clear : ∀ q ∈ places, ∀ content, d.get? q ≠ some (.file content)
  /-- They are directories now. -/
  directory : ∀ q ∈ places, made.get? q = some .directory
  /-- No other place has changed. -/
  kept : ∀ q, q ∉ places → made.get? q = d.get? q

/-- No directory is made at no place. -/
theorem Furnished.nil (d : Disk) : Furnished d d [] :=
  ⟨fun _ h => absurd h List.not_mem_nil, fun _ h => absurd h List.not_mem_nil, fun _ _ => rfl⟩

/-- A place that was a directory may be counted. -/
theorem Furnished.cons_directory {places : List Place} (h : Furnished d made places)
    (hq : d.get? q = some .directory) : Furnished d made (q :: places) := by
  refine ⟨List.forall_mem_cons.2 ⟨fun c hc => ?_, h.clear⟩,
    List.forall_mem_cons.2 ⟨?_, h.directory⟩,
    fun p hp => h.kept p fun hmem => hp (List.mem_cons_of_mem _ hmem)⟩
  · rw [hq] at hc
    cases hc
  · by_cases hmem : q ∈ places
    · exact h.directory q hmem
    · rw [h.kept q hmem, hq]

/-- A directory may be made at a free place first. -/
theorem Furnished.cons_free {places : List Place} (hq : d.get? q = none)
    (h : Furnished (d.set q .directory) made places) : Furnished d made (q :: places) := by
  have hroot : q ≠ [] := by
    rintro rfl
    cases hq
  refine ⟨List.forall_mem_cons.2 ⟨fun c hc => ?_, fun p hp c hc => ?_⟩,
    List.forall_mem_cons.2 ⟨?_, h.directory⟩, fun p hp => ?_⟩
  · rw [hq] at hc
    cases hc
  · have hne : p ≠ q := by
      rintro rfl
      rw [hq] at hc
      cases hc
    exact h.clear p hp c ((get?_set_of_ne d hne _).trans hc)
  · by_cases hmem : q ∈ places
    · exact h.directory q hmem
    · rw [h.kept q hmem, get?_set_self d hroot]
  · rw [List.mem_cons, not_or] at hp
    rw [h.kept p hp.2, get?_set_of_ne d hp.1]

/-- The paths that lead through names one by one, behind names that are done. -/
def onward (done : List (List Char)) : List (List Char) → List String
  | [] => []
  | n :: rest => String.ofList (Path.joinNames (done ++ [n])) :: onward (done ++ [n]) rest

/-- The beginnings of a list of names can be counted or built one from the other. -/
theorem map_range_eq_onward (done rest : List (List Char)) :
    (List.range rest.length).map (fun i =>
      String.ofList (Path.joinNames ((done ++ rest).take (done.length + i + 1))))
        = onward done rest := by
  induction rest generalizing done with
  | nil => rfl
  | cons n rest ih =>
    rw [List.length_cons, List.range_succ_eq_map, List.map_cons, List.map_map, onward, ← ih]
    have hone : (done ++ n :: rest).take (done.length + 0 + 1) = done ++ [n] := by
      rw [Nat.add_zero, List.take_append, List.take_of_length_le (Nat.le_succ _),
        Nat.add_sub_cancel_left]
      rfl
    rw [hone]
    refine congrArg (_ :: ·) (List.map_congr_left fun i _ => ?_)
    rw [List.append_cons, List.length_append, List.length_singleton, Function.comp_apply,
      Nat.succ_eq_add_one, Nat.add_right_comm done.length 1 i, Nat.add_assoc done.length i 1]

/-- The beginnings of a path are built from its first name on. -/
theorem ways_eq_onward (path : String) : ways path = onward [] (Path.segments path.toList) := by
  rw [← map_range_eq_onward, ways]
  simp

/-- Paths through names that start from one place, whatever names are done. -/
def StartFrom (cwd : String) (start : List String) (done rest : List (List Char)) : Prop :=
  ∀ front, front ≠ [] → front <+: rest →
    String.ofList (Path.joinNames (done ++ front)) ≠ "" ∧
      lead cwd (String.ofList (Path.joinNames (done ++ front))) = start

/-- One more name may be done. -/
theorem StartFrom.tail {start : List String} {done rest : List (List Char)} {n : List Char}
    (h : StartFrom cwd start done (n :: rest)) : StartFrom cwd start (done ++ [n]) rest := by
  intro front _ hprefix
  rw [List.append_assoc, List.singleton_append]
  exact h (n :: front) (List.cons_ne_nil _ _) (List.cons_prefix_cons.2 ⟨rfl, hprefix⟩)

/-- None of them is empty, so none is passed over. -/
theorem StartFrom.filter_onward {start : List String} {done rest : List (List Char)}
    (h : StartFrom cwd start done rest) :
    (onward done rest).filter (fun p => !p.isEmpty) = onward done rest := by
  induction rest generalizing done with
  | nil => rfl
  | cons n rest ih =>
    obtain ⟨hne, -⟩ :=
      h [n] (List.cons_ne_nil _ _) (List.cons_prefix_cons.2 ⟨rfl, List.nil_prefix⟩)
    rw [onward, List.filter_cons_of_pos, ih h.tail]
    simpa using hne

/-- The place that names lead to, behind the names one starts with. -/
def reached (start : List String) (done : List (List Char)) : Place :=
  (done.map String.ofList).foldl step (start.foldl step [])

/-- The places that have to be directories when names have been followed and one more is to
be. -/
def behind (start : List String) (done : List (List Char)) : List Place :=
  passing [] start ++ start.foldl step [] :: stops (start.foldl step []) (done.map String.ofList)

/-- A last name has one stop more. -/
theorem stops_concat (p : Place) (ns : List String) (n : String) :
    stops p (ns ++ [n]) = stops p ns ++ [step (ns.foldl step p) n] := by
  induction ns generalizing p with
  | nil => rfl
  | cons m ns ih => rw [List.cons_append, stops, ih]; rfl

/-- One more name is one more step. -/
theorem reached_concat (start : List String) (done : List (List Char)) (n : List Char) :
    reached start (done ++ [n]) = step (reached start done) (String.ofList n) := by
  rw [reached, List.map_append, List.foldl_append]; rfl

/-- And one more place that has to be a directory. -/
theorem behind_concat (start : List String) (done : List (List Char)) (n : List Char) :
    behind start (done ++ [n]) = behind start done ++ [reached start (done ++ [n])] := by
  rw [behind, List.map_append, List.map_singleton, stops_concat, reached_concat, behind,
    List.append_assoc]
  rfl

/-- The next of the paths leads through what is behind it. -/
theorem StartFrom.next {start : List String} {done rest : List (List Char)} {n : List Char}
    (h : StartFrom cwd start done (n :: rest)) (hslash : ∀ s ∈ done ++ n :: rest, '/' ∉ s) :
    ∃ way, way ≠ "" ∧ onward done (n :: rest) = way :: onward (done ++ [n]) rest ∧
      passed cwd way = behind start done ∧
      destination cwd way = reached start (done ++ [n]) := by
  obtain ⟨hne, hlead⟩ :=
    h [n] (List.cons_ne_nil _ _) (List.cons_prefix_cons.2 ⟨rfl, List.nil_prefix⟩)
  have hnames : names (String.ofList (Path.joinNames (done ++ [n]))) =
      done.map String.ofList ++ [String.ofList n] := by
    rw [names, String.toList_ofList, Path.segments_joinNames (by simp), List.map_append]
    · rfl
    · intro s hs
      refine hslash s ?_
      rw [List.append_cons]
      exact List.mem_append_left _ hs
  refine ⟨_, hne, rfl, ?_, ?_⟩
  · rw [passed, base, hlead, hnames, passing_concat, behind]
  · rw [destination, base, hlead, hnames, reached, List.map_append]; rfl

/-- **Directories are made exactly where no file is in the way**, name by name behind
directories. -/
theorem makeEach_onward {start : List String} {done rest : List (List Char)}
    (hstart : StartFrom cwd start done rest) (hslash : ∀ s ∈ done ++ rest, '/' ∉ s)
    (hdirs : ∀ q ∈ behind start done, d.get? q = some .directory) :
    (∀ made, d.makeEach cwd (onward done rest) = .ok made →
      Furnished d made (stops (reached start done) (rest.map String.ofList))) ∧
    ((∀ q ∈ stops (reached start done) (rest.map String.ofList), ∀ content,
        d.get? q ≠ some (.file content)) →
      ∃ made, d.makeEach cwd (onward done rest) = .ok made) := by
  induction rest generalizing d done with
  | nil => exact ⟨fun made h => Except.ok.inj h ▸ .nil d, fun _ => ⟨d, rfl⟩⟩
  | cons n rest ih =>
    obtain ⟨way, hne, honward, hpassed, hplace⟩ := hstart.next hslash
    rw [← hpassed] at hdirs
    rw [honward, makeEach, stat_of_passed hne hdirs,
      (locate_eq_ok_iff hne).2 ⟨rfl, hdirs⟩, hplace, List.map_cons, stops, ← reached_concat]
    -- what is behind the name after this one, once this one leads to a directory
    have hnext : ∀ e : Disk, (∀ q, d.get? q = some .directory → e.get? q = some .directory) →
        e.get? (reached start (done ++ [n])) = some .directory →
        ∀ q ∈ behind start (done ++ [n]), e.get? q = some .directory := by
      intro e hkeeps hthere q hq
      rw [behind_concat, ← hpassed] at hq
      rcases List.mem_append.1 hq with hq | hq
      · exact hkeeps q (hdirs q hq)
      · rw [List.mem_singleton.1 hq, hthere]
    have hslash' : ∀ s ∈ done ++ [n] ++ rest, '/' ∉ s := by
      rwa [← List.append_cons]
    -- At the next place there is nothing, a file, or a directory already.
    cases hget : d.get? (reached start (done ++ [n])) with
    | none =>
      have hroot : reached start (done ++ [n]) ≠ [] := by
        intro h
        rw [h] at hget
        cases hget
      have hself := get?_set_self d hroot .directory
      have hother := fun q (hq : q ≠ reached start (done ++ [n])) =>
        get?_set_of_ne d hq .directory
      obtain ⟨hsound, hcomplete⟩ := ih hstart.tail hslash' (hnext _ (fun q hq => by
        by_cases hqw : q = reached start (done ++ [n])
        · rw [hqw, hself]
        · rw [hother q hqw, hq]) hself)
      refine ⟨fun made h => .cons_free hget (hsound made h),
        fun hclear => hcomplete fun q hq c hc => ?_⟩
      by_cases hqw : q = reached start (done ++ [n])
      · rw [hqw, hself] at hc
        cases hc
      · rw [hother q hqw] at hc
        exact hclear q (List.mem_cons_of_mem _ hq) c hc
    | some e =>
      cases e with
      | file content =>
        exact ⟨fun made h => absurd h (by simp),
          fun hclear => absurd hget (hclear _ List.mem_cons_self content)⟩
      | directory =>
        obtain ⟨hsound, hcomplete⟩ := ih hstart.tail hslash' (hnext d (fun _ hq => hq) hget)
        exact ⟨fun made h => (hsound made h).cons_directory hget,
          fun hclear => hcomplete fun q hq => hclear q (List.mem_cons_of_mem _ hq)⟩

/-- The ways along a path that does not start at the root start where the path does. -/
theorem startFrom_of_relative (hpath : path ≠ "") (habs : Path.isAbsolute path = false) :
    StartFrom cwd (lead cwd path) [] (Path.segments path.toList) := by
  obtain ⟨c, rest, hc⟩ := List.exists_cons_of_ne_nil (mt String.toList_eq_nil_iff.1 hpath)
  have hslash : c ≠ '/' := by
    rintro rfl
    rw [Path.isAbsolute, hc] at habs
    cases habs
  obtain ⟨s, more, -, hcons⟩ := Path.segments_cons_of_ne hslash rest
  intro front hne hprefix
  rw [hc, hcons] at hprefix
  obtain ⟨n, ns, rfl⟩ := List.exists_cons_of_ne_nil hne
  obtain ⟨rfl, -⟩ := List.cons_prefix_cons.1 hprefix
  -- the way starts with the first name of the path, so it is neither empty nor starts at the
  -- root
  have hsegments : Path.segments (Path.joinNames ((c :: s) :: ns)) = (c :: s) :: ns :=
    Path.segments_joinNames hne fun t ht =>
      Path.slash_notMem_segments (p := c :: rest) (by rw [hcons]; exact hprefix.subset ht)
  have hrel : Path.isAbsolute (String.ofList (Path.joinNames ((c :: s) :: ns))) = false := by
    rw [Path.isAbsolute, String.toList_ofList, Bool.eq_false_iff]
    intro hrooted
    obtain ⟨more, -, hmore⟩ := Path.isRooted_iff.1 hrooted
    rw [hsegments] at hmore
    cases hmore
  refine ⟨fun h => ?_, by rw [List.nil_append, lead, lead, hrel, habs]⟩
  rw [List.nil_append, ← String.toList_eq_nil_iff, String.toList_ofList] at h
  rw [h] at hsegments
  cases hsegments

/-- The ways along a path that starts at the root start at the root. -/
theorem startFrom_of_absolute (ns : List (List Char)) : StartFrom cwd [] [[]] ns := by
  intro front hne _
  obtain ⟨n, rest, rfl⟩ := List.exists_cons_of_ne_nil hne
  have hway : (String.ofList (Path.joinNames ([[]] ++ n :: rest))).toList =
      '/' :: Path.joinNames (n :: rest) := by
    rw [String.toList_ofList]; rfl
  refine ⟨fun h => ?_, ?_⟩
  · rw [h] at hway
    cases hway
  · rw [lead, Path.isAbsolute, hway]; rfl

/-- Directories are made only where one can start from. -/
theorem standing_of_makeEach {n : List Char} {ns : List (List Char)} {start : List String}
    (hstart : StartFrom cwd start [] (n :: ns)) (hslash : ∀ s ∈ n :: ns, '/' ∉ s)
    (h : d.makeEach cwd (onward [] (n :: ns)) = .ok made) :
    ∀ q ∈ behind start [], d.get? q = some .directory := by
  obtain ⟨way, hne, honward, hpassed, -⟩ := hstart.next hslash
  rw [honward, makeEach] at h
  rw [← hpassed]
  cases hl : d.locate cwd way with
  | ok p => exact ((locate_eq_ok_iff hne).1 hl).2
  | error r =>
    rw [stat, hl] at h
    cases h

/-- **The directories of a path can be made exactly if one can start and no file is in the
way.** -/
theorem makeDirs_spec (cwd : String) (hpath : path ≠ "") :
    (∀ made, d.makeDirs cwd path = .ok made →
      (∀ q ∈ standing cwd path, d.get? q = some .directory) ∧
        Furnished d made (stops (base cwd path) (names path))) ∧
    ((∀ q ∈ standing cwd path, d.get? q = some .directory) →
      (∀ q ∈ stops (base cwd path) (names path), ∀ content, d.get? q ≠ some (.file content)) →
      ∃ made, d.makeDirs cwd path = .ok made) := by
  have hslash : ∀ s ∈ Path.segments path.toList, '/' ∉ s :=
    fun s hs => Path.slash_notMem_segments hs
  rw [makeDirs, ways_eq_onward]
  cases habs : Path.isAbsolute path with
  | false =>
    have hstart : StartFrom cwd _ _ _ := startFrom_of_relative hpath habs
    rw [hstart.filter_onward]
    obtain ⟨n, ns, hsegments⟩ := List.exists_cons_of_ne_nil (Path.segments_ne_nil path.toList)
    have hspec := fun hdirs => makeEach_onward (d := d) hstart hslash hdirs
    refine ⟨fun made h => ?_, fun hdirs hclear => (hspec hdirs).2 hclear⟩
    have hdirs : ∀ q ∈ standing cwd path, d.get? q = some .directory := by
      rw [hsegments] at hstart hslash h
      exact standing_of_makeEach hstart hslash h
    exact ⟨hdirs, (hspec hdirs).1 made h⟩
  | true =>
    obtain ⟨more, -, hsegments⟩ := Path.isRooted_iff.1 habs
    have hlead : lead cwd path = [] := by rw [lead, if_pos habs]
    have hnames : names path = "" :: more.map String.ofList := by
      rw [names, hsegments]; rfl
    rw [standing, base, hlead, hnames, hsegments]
    rw [hsegments] at hslash
    -- the first way is no path, and the root is there
    have hstart : StartFrom cwd [] [[]] more := startFrom_of_absolute more
    have hfilter : (onward [] ([] :: more)).filter (fun p => !p.isEmpty) = onward [[]] more := by
      rw [onward, List.filter_cons_of_neg (by decide)]
      exact hstart.filter_onward
    have hroot : ∀ q ∈ behind [] [[]], d.get? q = some .directory := by
      rintro q (_ | ⟨_, _ | ⟨_, h⟩⟩)
      · rfl
      · rfl
      · cases h
    obtain ⟨hsound, hcomplete⟩ := makeEach_onward (d := d) hstart hslash hroot
    rw [hfilter]
    refine ⟨fun made h => ⟨fun q hq => ?_, (hsound made h).cons_directory rfl⟩,
      fun _ hclear => hcomplete fun q hq => hclear q (List.mem_cons_of_mem _ hq)⟩
    rw [List.mem_singleton.1 hq]; rfl

/-! ## Storing a file

The path of the file is clean, so its way consists of where one starts and of the stops of its
directory. These are just the places where the directories are made. -/

/-- **There is room for a file** where a path leads: one can start, no file is in the way, and
neither a directory is at the place nor the place on its own way. -/
structure Room (d : Disk) (cwd path : String) : Prop where
  /-- One can start. -/
  start : ∀ q ∈ standing cwd path, d.get? q = some .directory
  /-- No file is in the way. -/
  clear : ∀ q ∈ passed cwd path, ∀ content, d.get? q ≠ some (.file content)
  /-- The place is not on its own way. -/
  apart : destination cwd path ∉ passed cwd path
  /-- The place holds no directory. -/
  free : d.get? (destination cwd path) ≠ some .directory

/-- A file system in which a file was stored where a path leads. -/
structure Stored (d d' : Disk) (cwd path : String) (content : Text) : Prop where
  /-- The file is at its place. -/
  file : d'.get? (destination cwd path) = some (.file content)
  /-- The places on its way are directories. -/
  directory : ∀ q ∈ passed cwd path, d'.get? q = some .directory
  /-- Every other place is as it was. -/
  kept : ∀ q, q ≠ destination cwd path → q ∉ passed cwd path → d'.get? q = d.get? q

/-- The places on the way of a clean path are directories once its directory was made. -/
theorem Furnished.of_dir (hclean : IsClean path)
    (hstart : ∀ q ∈ standing cwd path, d.get? q = some .directory)
    (h : Furnished d made (stops (base cwd path) (names (Path.dir path)))) :
    Furnished d made (passed cwd path) := by
  refine ⟨fun q hq c hc => ?_, fun q hq => ?_, fun q hq => ?_⟩
  · rcases hclean.mem_passed_iff.1 hq with hq | hq
    · rw [hstart q hq] at hc
      cases hc
    · exact h.clear q hq c hc
  · by_cases hstop : q ∈ stops (base cwd path) (names (Path.dir path))
    · exact h.directory q hstop
    · rw [h.kept q hstop]
      exact hstart q ((hclean.mem_passed_iff.1 hq).resolve_right hstop)
  · exact h.kept q fun hstop => hq (hclean.mem_passed_iff.2 (.inr hstop))

/-- The directory of a clean path is clean, and its names are followed from the same place. -/
theorem IsClean.dir (h : IsClean path) (cwd : String) :
    IsClean (Path.dir path) ∧ lead cwd (Path.dir path) = lead cwd path := by
  refine ⟨⟨Path.upToSlash path.toList, by rw [Path.dir, String.toList_ofList]⟩, ?_⟩
  rw [lead, lead, h.isAbsolute_dir]

/-- What a file system is after a file was stored had room for the file, and has it. -/
theorem stored_of_write (hclean : IsClean path)
    (hmade : d.makeDirs cwd (Path.dir path) = .ok made)
    (hwrite : made.write cwd path content = .ok d') :
    Room d cwd path ∧ Stored d d' cwd path content := by
  obtain ⟨hdir, hlead⟩ := hclean.dir cwd
  obtain ⟨hstart, hfurnished⟩ := (makeDirs_spec cwd hdir.ne_empty).1 made hmade
  rw [standing, base, hlead] at hstart
  rw [base, hlead] at hfurnished
  replace hfurnished := hfurnished.of_dir hclean hstart
  obtain ⟨p, hlocate, hroot, hfree, rfl⟩ := write_eq_ok hwrite
  obtain ⟨rfl, -⟩ := (locate_eq_ok_iff hclean.ne_empty).1 hlocate
  -- If the file were on its own way, there would be a directory at its place.
  have hapart : destination cwd path ∉ passed cwd path :=
    fun h => hfree (hfurnished.directory _ h)
  have hne : ∀ q ∈ passed cwd path, q ≠ destination cwd path := fun q hq h => hapart (h ▸ hq)
  exact ⟨⟨hstart, hfurnished.clear, hapart, by rwa [← hfurnished.kept _ hapart]⟩,
    ⟨get?_set_self _ hroot _,
      fun q hq => by rw [get?_set_of_ne _ (hne q hq), hfurnished.directory q hq],
      fun q hq hpassed => by rw [get?_set_of_ne _ hq, hfurnished.kept q hpassed]⟩⟩

/-- **Where there is room, a file can be stored.** -/
theorem Room.exists_write (h : Room d cwd path) (hclean : IsClean path) (content : Text) :
    ∃ made d', d.makeDirs cwd (Path.dir path) = .ok made ∧
      made.write cwd path content = .ok d' := by
  obtain ⟨hdir, hlead⟩ := hclean.dir cwd
  have hspec := makeDirs_spec (d := d) cwd hdir.ne_empty
  rw [standing, base, hlead] at hspec
  obtain ⟨made, hmade⟩ := hspec.2 h.start fun q hq =>
    h.clear q (hclean.mem_passed_iff.2 (.inr hq))
  have hfurnished := (hspec.1 made hmade).2.of_dir hclean h.start
  have hlocate : made.locate cwd path = .ok (destination cwd path) :=
    (locate_eq_ok_iff hclean.ne_empty).2 ⟨rfl, hfurnished.directory⟩
  have hfree : made.get? (destination cwd path) ≠ some .directory := by
    rw [hfurnished.kept _ h.apart]
    exact h.free
  refine ⟨made, made.set (destination cwd path) (.file content), hmade, ?_⟩
  rw [write, hlocate]
  dsimp only
  split
  · rename_i hget
    exact absurd hget hfree
  · rfl

/-! ## Storing after storing

What the first file has changed is its own place, where there is a file now, and the places on
its way, where there are directories. The first can only be in the way, and the second can only
be where a file should go. -/

/-- A directory is still there after a file was stored, if it was not at the place of the
file. -/
theorem Stored.of_directory (h : Stored d d' cwd path content)
    (hfree : d.get? (destination cwd path) ≠ some .directory) (hq : d.get? q = some .directory) :
    d'.get? q = some .directory := by
  have hne : q ≠ destination cwd path := by
    rintro rfl
    exact hfree hq
  by_cases hpassed : q ∈ passed cwd path
  · exact h.directory q hpassed
  · rw [h.kept q hne hpassed, hq]

/-- **Room for one more file.** Once a file has been stored, there is room for another that one
starts for alike, exactly if there was room before and neither is on the way to the other. -/
theorem Stored.room_iff {path' : String} (h : Stored d d' cwd path content)
    (hroom : Room d cwd path)
    (hstart : standing cwd path' = standing cwd path) :
    Room d' cwd path' ↔ Room d cwd path' ∧ destination cwd path ∉ passed cwd path' ∧
      destination cwd path' ∉ passed cwd path := by
  constructor
  · intro h'
    -- The stored file is on the way to nothing, and what is on the way to it is a directory
    -- now.
    have hpassed : destination cwd path ∉ passed cwd path' :=
      fun hmem => h'.clear _ hmem content h.file
    have hpassed' : destination cwd path' ∉ passed cwd path :=
      fun hmem => h'.free (h.directory _ hmem)
    refine ⟨⟨hstart ▸ hroom.start, fun q hq c hc => ?_, h'.apart, fun hdir => ?_⟩,
      hpassed, hpassed'⟩
    · by_cases hmem : q ∈ passed cwd path
      · exact hroom.clear q hmem c hc
      · have hne : q ≠ destination cwd path := by
          rintro rfl
          exact hpassed hq
        exact h'.clear q hq c ((h.kept q hne hmem).trans hc)
    · exact h'.free (h.of_directory hroom.free hdir)
  · -- Storing has changed the directories on its way and the place of the file, and no other.
    rintro ⟨h', hpassed, hpassed'⟩
    refine ⟨fun q hq => h.of_directory hroom.free (h'.start q hq), fun q hq c hc => ?_, h'.apart,
      fun hdir => ?_⟩
    · have hne : q ≠ destination cwd path := by
        rintro rfl
        exact hpassed hq
      by_cases hmem : q ∈ passed cwd path
      · rw [h.directory q hmem] at hc
        cases hc
      · exact h'.clear q hq c ((h.kept q hne hmem).symm.trans hc)
    · by_cases heq : destination cwd path' = destination cwd path
      · rw [heq, h.file] at hdir
        cases hdir
      · rw [h.kept _ heq hpassed'] at hdir
        exact h'.free hdir

end Exemplar.Disk
