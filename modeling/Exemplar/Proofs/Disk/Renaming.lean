import Exemplar.Proofs.Disk.Removing

/-!
# Moving what a path leads to

Renaming takes a place with everything below it to another place. What stood at the target and
below it is gone, what stood at the source stands at the target with the same names behind it,
and nothing else changes. In a tree, a place that is free has nothing below it, so a move to a
free place loses nothing.

A disk is a list of places with what they hold, and nothing in it forces a file to stand in a
directory. That every place with something in it has a directory above is a property of its own
(`IsTree`), and each operation keeps it: an entry is put in a directory, and a move takes along
all that stands below. What is below a place is said by the list of names that lead there from
it, so a move changes the end of a place and keeps these names.
-/

namespace Exemplar.Disk

variable {d d' made : Disk} {cwd path source target : String}
  {p q x : Place} {below : List String}

/-! ## Below a place

A tree has no holes. So what holds nothing has nothing below it, and what holds something has
nothing but directories above it. -/

/-- Within a place are the places that end with it, since the last name comes first. -/
theorem isWithin_iff : isWithin x p = true ↔ p <:+ x := List.isSuffixOf_iff_suffix

/-- **Below a free place everything is free.** By induction on the names that lead down: if
there were something behind the next name, there would be a directory in front of it. -/
theorem IsTree.free_below (ht : d.IsTree) (hp : d.get? p = none) (below : List String) :
    d.get? (below ++ p) = none := by
  induction below with
  | nil => exact hp
  | cons n rest ih =>
    by_contra hne
    have hdir := ht _ hne
    rw [List.cons_append, List.tail_cons, ih] at hdir
    cases hdir

/-- **Above whatever there is are directories.** One step up there is one because of what is
below it, and so on upwards. -/
theorem IsTree.directory_above (ht : d.IsTree) {n : String} (hp : d.get? (n :: p) ≠ none)
    (hq : q <:+ p) : d.get? q = some .directory := by
  obtain ⟨below, rfl⟩ := hq
  induction below generalizing n with
  | nil => exact ht _ hp
  | cons m rest ih =>
    refine ih (n := m) ?_
    rw [← List.cons_append, show m :: rest ++ q = (n :: (m :: rest ++ q)).tail from rfl, ht _ hp]
    exact Option.some_ne_none _

/-- Nothing is below a file. -/
theorem IsTree.free_below_file (ht : d.IsTree) {content : Text}
    (hp : d.get? p = some (.file content))
    (n : String) (below : List String) : d.get? (n :: below ++ p) = none := by
  by_contra hne
  rw [ht.directory_above hne (List.suffix_append below p)] at hp
  cases hp

/-- A tree stays one if something is put in a directory, in place of what is no directory. If a
directory were replaced, what it holds would hang in the air. -/
theorem IsTree.set (ht : d.IsTree) {e : Entry} (hparent : d.get? p.tail = some .directory)
    (hp : d.get? p ≠ some .directory) : (d.set p e).IsTree := by
  have hroot : p ≠ [] := by
    rintro rfl
    exact hp rfl
  have hkeep : ∀ {q : Place}, d.get? q = some .directory →
      (d.set p e).get? q = some .directory := by
    intro q hq
    rw [get?_set_of_ne d (by rintro rfl; exact hp hq), hq]
  intro q hq
  -- Above the new entry is a directory by assumption; all others keep the one they have.
  by_cases hqp : q = p
  · rw [hqp]
    exact hkeep hparent
  · rw [get?_set_of_ne d hqp] at hq
    exact hkeep (ht q hq)

/-- A tree stays one while directories are made one by one. A place is reached through
directories, so a new one stands in one. -/
theorem IsTree.makeEach (ht : d.IsTree) {paths : List String}
    (h : d.makeEach cwd paths = .ok made) :
    made.IsTree := by
  induction paths generalizing d with
  | nil => cases h; exact ht
  | cons path rest ih =>
    obtain h | ⟨p, hl, hfree, h⟩ := makeEach_cons_eq_ok h
    · exact ih ht h
    · obtain ⟨-, rfl, hway⟩ := passed_of_locate hl
      refine ih (ht.set (hway _ (tail_destination_mem_passed cwd path)) ?_) h
      rw [hfree]
      exact (Option.some_ne_none _).symm

/-- **Making directories keeps a tree.** -/
theorem IsTree.makeDirs (ht : d.IsTree) (h : d.makeDirs cwd path = .ok made) : made.IsTree :=
  ht.makeEach h

/-! ## Directories that are made in a tree

Making the directories of a path goes through all its stops. If the path goes up first, it comes
by places that are there already, since there is a place above only of what is there. So only on
the way down is anything made, and that is above the end. -/

/-- The stops of a path are those of its beginning and then those of the rest. -/
theorem stops_append (p : Place) (ns rest : List String) :
    stops p (ns ++ rest) = stops p ns ++ stops (ns.foldl step p) rest := by
  induction ns generalizing p with
  | nil => rfl
  | cons n ns ih => rw [List.cons_append, stops, ih]; rfl

/-- Downwards, every place that is reached is above the end. -/
theorem suffix_of_mem_stops {downs : List String} (hdowns : ∀ n ∈ downs, ∀ p, step p n = n :: p)
    (hq : q ∈ stops p downs) : q <:+ downs.foldl step p := by
  induction downs generalizing p with
  | nil => exact absurd hq List.not_mem_nil
  | cons n rest ih =>
    have hrest := (List.forall_mem_cons.1 hdowns).2
    rw [stops, List.mem_cons] at hq
    rw [List.foldl_cons]
    rcases hq with rfl | hq
    · rw [foldl_step_of_down hrest]
      exact List.suffix_append _ _
    · exact ih hrest hq

/-- **Directories are made only above where a clean path leads**, at places that were free. -/
theorem IsTree.get?_of_makeDirs (ht : d.IsTree) (hclean : IsClean path)
    (h : d.makeDirs cwd path = .ok made) (q : Place) :
    made.get? q = d.get? q ∨
      (q <:+ destination cwd path ∧ d.get? q = none ∧ made.get? q = some .directory) := by
  obtain ⟨hstart, hfurnished⟩ := (makeDirs_spec cwd hclean.ne_empty).1 made h
  -- What is no stop of the path is left alone.
  by_cases hq : q ∈ stops (base cwd path) (names path)
  · have hmade := hfurnished.directory q hq
    cases hget : d.get? q with
    | some e =>
      cases e with
      | directory => exact .inl hmade
      | file content => exact absurd hget (hfurnished.clear q hq content)
    | none =>
      refine .inr ⟨?_, rfl, hmade⟩
      obtain ⟨ups, downs, hnames, hups, hdowns⟩ := hclean.exists_names
      rw [hnames, stops_append, List.mem_append] at hq
      rw [destination, hnames, List.foldl_append]
      refine suffix_of_mem_stops hdowns (hq.resolve_left fun hup => ?_)
      -- on the way up there are directories
      obtain ⟨hpassing, hend⟩ := ht.directory_of_up hups
        (hstart _ (List.mem_append_right _ List.mem_cons_self))
      have hall : ∀ x ∈ stops (base cwd path) ups, d.get? x = some .directory := by
        intro x hx
        have hmem : x ∈ passing (base cwd path) (ups ++ [""]) := by
          rw [passing_concat]
          exact List.mem_cons_of_mem _ hx
        rw [passing_append, List.mem_append] at hmem
        rcases hmem with hmem | hmem
        · exact hpassing x hmem
        · rw [List.mem_singleton.1 hmem, hend]
      rw [hall q hup] at hget
      cases hget
  · exact .inl (hfurnished.kept q hq)

/-! ## Moving a tree

The move is computed on the list of entries: those within the source get the target as the new
end of their place. Looking up a place in the list that comes out is looking up the old place in
the old list. -/

/-- The entries at and below a place, as they are moved to another. An entry with names in front
of the source is found by the same names in front of the target, and no other entry is moved
there. -/
theorem lookup_moved (l : List (Place × Entry)) :
    ((l.filter (fun e => isWithin e.1 p)).map
      (fun e => (e.1.take (e.1.length - p.length) ++ q, e.2))).lookup (below ++ q) =
      l.lookup (below ++ p) := by
  induction l with
  | nil => rfl
  | cons e rest ih =>
    obtain ⟨k, v⟩ := e
    by_cases hk : isWithin k p = true
    · obtain ⟨front, rfl⟩ := isWithin_iff.1 hk
      have hfront : (front ++ p).take ((front ++ p).length - p.length) = front := by
        rw [List.length_append, Nat.add_sub_cancel, List.take_left]
      have hsame : (below ++ q == front ++ q) = (below ++ p == front ++ p) := by
        rw [Bool.eq_iff_iff, beq_iff_eq, beq_iff_eq, List.append_left_inj, List.append_left_inj]
      rw [List.filter_cons_of_pos (by exact hk), List.map_cons, List.lookup_cons,
        List.lookup_cons, ih, hfront, hsame]
    · have hne : (below ++ p == k) = false := by
        rw [beq_eq_false_iff_ne]
        rintro rfl
        exact hk (isWithin_iff.2 (List.suffix_append _ _))
      rw [List.filter_cons_of_neg (by exact hk), ih, List.lookup_cons, hne]

/-- Nothing is moved anywhere but to the target. -/
theorem lookup_moved_of_not_within (hx : ¬q <:+ x) (l : List (Place × Entry)) :
    (l.map (fun e => (e.1.take (e.1.length - p.length) ++ q, e.2))).lookup x = none := by
  rw [List.lookup_eq_none_iff]
  intro e he
  obtain ⟨e', -, rfl⟩ := List.mem_map.1 he
  rw [bne_iff_ne]
  rintro rfl
  exact hx (List.suffix_append _ _)

/-- A file system with everything at and below a place moved to another place. -/
structure Moved (d d' : Disk) (p q : Place) : Prop where
  /-- What stood at and below the source stands at and below the target. -/
  target : ∀ below, d'.get? (below ++ q) = d.get? (below ++ p)
  /-- Nothing is left at the source and below it. -/
  source : ∀ below, d'.get? (below ++ p) = none
  /-- No other place has changed. -/
  kept : ∀ x, ¬p <:+ x → ¬q <:+ x → d'.get? x = d.get? x

/-- The entries that are moved stand before those that are kept, and neither those at the source
nor those at the target are kept. For this, the source must not lie within the target: otherwise
it would be cleared along with it. -/
theorem moved_moveTree (d : Disk) (hp : p ≠ []) (hq : q ≠ [])
    (hapart : ∀ below, ¬q <:+ below ++ p) : Moved d (d.moveTree p q) p q := by
  have hget : ∀ {e : Disk} {x : Place}, x ≠ [] → e.get? x = e.entries.lookup x := fun hx => by
    rw [get?, if_neg (by simpa using hx)]
  refine ⟨fun below => ?_, fun below => ?_, fun x hxp hxq => ?_⟩
  · rw [hget (List.append_ne_nil_of_right_ne_nil _ hq),
      hget (List.append_ne_nil_of_right_ne_nil _ hp), moveTree, List.lookup_append, lookup_moved,
      lookup_filter_of_neg (f := fun x => !isWithin x p && !isWithin x q), Option.or_none]
    rw [isWithin_iff.2 (List.suffix_append below q), Bool.not_true, Bool.and_false]
  · rw [hget (List.append_ne_nil_of_right_ne_nil _ hp), moveTree, List.lookup_append,
      lookup_moved_of_not_within (hapart below),
      lookup_filter_of_neg (f := fun x => !isWithin x p && !isWithin x q), Option.none_or]
    rw [isWithin_iff.2 (List.suffix_append below p), Bool.not_true, Bool.false_and]
  · by_cases hx : x = []
    · subst hx
      rfl
    · rw [hget hx, hget hx, moveTree, List.lookup_append, lookup_moved_of_not_within hxq,
        lookup_filter_of_pos (f := fun x => !isWithin x p && !isWithin x q), Option.none_or]
      rw [Bool.and_eq_true, Bool.not_eq_true', Bool.not_eq_true',
        Bool.eq_false_iff, Bool.eq_false_iff, ne_eq, ne_eq, isWithin_iff, isWithin_iff]
      exact ⟨hxp, hxq⟩

/-- Renaming moves what the one path leads to where the other leads. All other outcomes are
refusals. -/
theorem moveTree_of_rename (h : d.rename cwd source target = .ok d') :
    d' = d.moveTree (destination cwd source) (destination cwd target) := by
  unfold rename at h
  dsimp only at h
  split at h
  · cases h
  · cases h
  · cases h
  · split at h
    · rename_i hsource htarget
      cases h
      rw [(passed_of_locate hsource).2.1, (passed_of_locate htarget).2.1]
    · cases h
    · cases h

/-- **A tree stays one** if something in it is moved to a place in a directory. At the target, a
directory is above by assumption, and below it what was above at the source; elsewhere nothing
has changed, but for the places at the source, where there is nothing any more. -/
theorem Moved.isTree (h : Moved d d' p q) (ht : d.IsTree) (hq : q ≠ [])
    (hparent : d.get? q.tail = some .directory) (hpq : ¬p <:+ q) : d'.IsTree := by
  have hqp : ∀ {x : Place}, q <:+ x.tail → q <:+ x := fun hx => hx.trans (List.tail_suffix _)
  have hpp : ∀ {x : Place}, p <:+ x.tail → p <:+ x := fun hx => hx.trans (List.tail_suffix _)
  intro x hx
  by_cases hxq : q <:+ x
  · obtain ⟨below, rfl⟩ := hxq
    cases below with
    | nil =>
      rw [List.nil_append, h.kept _ (mt hpp hpq), hparent]
      intro hself
      have := hself.length_le
      rw [List.length_tail] at this
      have := List.length_pos_iff.2 hq
      omega
    | cons n rest =>
      rw [h.target] at hx
      rw [List.cons_append, List.tail_cons, h.target]
      exact ht _ hx
  by_cases hxp : p <:+ x
  · obtain ⟨below, rfl⟩ := hxp
    exact absurd (h.source below) hx
  rw [h.kept x hxp hxq] at hx
  rw [h.kept _ (mt hpp hxp) (mt hqp hxq)]
  exact ht x hx

end Exemplar.Disk
