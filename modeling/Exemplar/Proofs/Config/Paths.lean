import Exemplar.Proofs.Config.Tidying

/-!
# Following a path through settings

A path goes from table to table by name. What it leads to does not depend on anything that is
put under a path which neither goes on from it nor ends on the way (`Apart`), so a tree that is
given by its leaves holds under each of their keys what was given for that key. In a tidy tree,
the keys of the tree are the paths that lead to leaves, each is there once, and a search along a
path finds what the path leads to unless a value stands in the way.

Of two trees that are laid over each other, the upper one decides about every setting that it
holds, as long as neither has a table where the other has a setting.

The proofs go along the path. Its first name leads to the table under that name, or to the empty
table if there is none, and the rest of the path goes on from there; only for the last name it
matters what the entry is. So most lemmas have two cases, for a path of one name and for one
that goes on.
-/

namespace Exemplar.Settings

variable {es sub rest more upper lower files : Settings} {name key start : String} {d e : Data}
  {path other : List String}

/-! ## Tables on the way -/

/-- In the empty tree no path leads anywhere. -/
theorem follow_nil (path : List String) : follow path [] = none := by
  cases path with
  | nil => rfl
  | cons name path => cases path <;> rfl

/-- A path that goes on does so from the table under its first name. -/
theorem follow_cons (hne : path ≠ []) :
    follow (name :: path) es = follow path (es.tableAt name) := by
  obtain ⟨next, rest, rfl⟩ := List.exists_cons_of_ne_nil hne
  rw [follow, tableAt]
  split
  · rfl
  · exact (follow_nil _).symm

/-- What is put under a path that goes on is put into the table under its first name. -/
theorem insert_cons (hne : path ≠ []) :
    insert d (name :: path) es = set name (.record (insert d path (es.tableAt name))) es := by
  obtain ⟨next, rest, rfl⟩ := List.exists_cons_of_ne_nil hne
  rfl

/-- A table that was put under a name is there. -/
theorem tableAt_set_self (es : Settings) (name : String) (sub : Settings) :
    (es.set name (.record sub)).tableAt name = sub := by
  rw [tableAt, lookup_set_self]

/-- The tables under other names are left as they are. -/
theorem tableAt_set_of_ne (es : Settings) {name other : String} (h : other ≠ name) (d : Data) :
    (es.set name d).tableAt other = es.tableAt other := by
  rw [tableAt, lookup_set_of_ne es h, tableAt]

/-! ## Paths that do not meet -/

/-- Neither of two paths goes on from the other. -/
def Apart (p q : List String) : Prop := ¬p <+: q ∧ ¬q <+: p

instance (p q : List String) : Decidable (Apart p q) := inferInstanceAs (Decidable (_ ∧ _))

/-- **What is put under a path is found there.** -/
theorem follow_insert_self (hne : path ≠ []) : follow path (insert d path es) = some d := by
  induction path generalizing es with
  | nil => exact absurd rfl hne
  | cons name path ih =>
    by_cases hpath : path = []
    · subst hpath
      exact lookup_set_self es name d
    · rw [insert_cons hpath, follow_cons hpath, tableAt_set_self, ih hpath]

/-- **Nothing changes where a path apart from it leads to.** If the first names differ, the
entry that is changed is another one. If they are the same, the paths go on in the same table
and are apart there, and neither ends here. -/
theorem follow_insert_of_apart (h : Apart path other) :
    follow path (insert d other es) = follow path es := by
  induction path generalizing other es with
  | nil => exact absurd List.nil_prefix h.1
  | cons name path ih =>
    cases other with
    | nil => exact absurd List.nil_prefix h.2
    | cons first other =>
      by_cases hname : name = first
      · subst hname
        have hmore : Apart path other := by simpa [Apart, List.cons_prefix_cons] using h
        have hpath : path ≠ [] := fun hnil => hmore.1 (hnil ▸ List.nil_prefix)
        have hother : other ≠ [] := fun hnil => hmore.2 (hnil ▸ List.nil_prefix)
        rw [insert_cons hother, follow_cons hpath, tableAt_set_self, ih hmore, follow_cons hpath]
      · by_cases hpath : path = []
        · subst hpath
          cases other with
          | nil => exact lookup_set_of_ne es hname d
          | cons next rest => exact lookup_set_of_ne es hname _
        · rw [follow_cons hpath, follow_cons hpath]
          cases other with
          | nil => rw [insert, tableAt_set_of_ne es hname]
          | cons next rest => rw [insert, tableAt_set_of_ne es hname]

/-- A tree made of leaves holds under a key what was given for it: the same by all entries for
that key, while all others are apart from it. -/
theorem follow_ofLeaves {l : List (String × Data)} {o : Option Data} (hne : path ≠ [])
    (h : ∀ e ∈ l, keyNames e.1 = path ∧ o = some e.2 ∨ Apart path (keyNames e.1))
    (hmem : o = none ∨ ∃ e ∈ l, keyNames e.1 = path) : follow path (ofLeaves l) = o := by
  -- behind some of the entries, the path leads nowhere yet, or to the value
  have hfold : ∀ {es : Settings}, follow path es = o ∨
      (follow path es = none ∧ ∃ e ∈ l, keyNames e.1 = path) →
      follow path (l.foldl (fun es e => insert e.2 (keyNames e.1) es) es) = o := by
    clear hmem
    induction l with
    | nil =>
      rintro es (hes | ⟨-, e, he, -⟩)
      · exact hes
      · cases he
    | cons e l ih =>
      obtain ⟨hhead, htail⟩ := List.forall_mem_cons.1 h
      intro es hes
      refine ih htail ?_
      show follow path (insert e.2 (keyNames e.1) es) = o ∨ _
      -- An entry for the key puts the value there, and any other leaves what is there.
      rcases hhead with ⟨hkey, ho⟩ | hapart
      · exact .inl (by rw [hkey, follow_insert_self hne, ho])
      · rw [follow_insert_of_apart hapart]
        refine hes.imp id fun ⟨hnone, e', he', hkey⟩ => ⟨hnone, ?_⟩
        rcases List.mem_cons.1 he' with rfl | he'
        · exact absurd (hkey ▸ List.prefix_rfl) hapart.1
        · exact ⟨e', he', hkey⟩
  refine hfold ?_
  rw [follow_nil]
  rcases hmem with rfl | hmem
  · exact .inl rfl
  · exact .inr ⟨rfl, hmem⟩

/-! ## Keys

A key is the names of a path with dots between them. So a key that the tree lists is turned back
into the path that leads to its leaf. -/

/-- The key of a path. `startOf` ends with a dot for each name in front of the last. -/
theorem keyOf_concat (path : List String) (name : String) :
    keyOf (path ++ [name]) = startOf path ++ name := by
  induction path with
  | nil => rw [startOf, List.map_nil, String.join_nil, String.empty_append]; rfl
  | cons first path ih =>
    obtain ⟨next, more, hcons⟩ :=
      List.exists_cons_of_ne_nil
        (List.append_ne_nil_of_right_ne_nil path (List.cons_ne_nil name []))
    rw [keyOf, hcons] at ih
    rw [startOf_cons, List.cons_append, hcons, keyOf, String.intercalate_cons_cons, ih]
    simp only [String.append_assoc]

/-- What is found under a name is among the entries. -/
theorem mem_of_lookup_eq_some {l : List (String × Data)} (h : l.lookup name = some d) :
    (name, d) ∈ l := by
  induction l with
  | nil => cases h
  | cons e l ih =>
    rw [show e = (e.1, e.2) from rfl, List.lookup_cons] at h
    split at h
    · rename_i heq
      rw [← Option.some.inj h, eq_of_beq heq]
      exact List.mem_cons_self
    · exact List.mem_cons_of_mem _ (ih h)

/-- The leaves of an entry are listed with those of the table. -/
theorem leavesAt_subset_leavesIn (h : (name, d) ∈ es) :
    leavesAt (start ++ name) d ⊆ leavesIn start es := by
  induction es with
  | nil => cases h
  | cons first es ih =>
    obtain ⟨n, e⟩ := first
    rw [leavesIn]
    rcases List.mem_cons.1 h with heq | hmem
    · obtain ⟨rfl, rfl⟩ := Prod.mk.inj heq
      exact List.subset_append_left _ _
    · exact List.Subset.trans (ih hmem) (List.subset_append_right _ _)

/-- **A leaf that a path leads to is listed under the key of the path.** -/
theorem mem_leavesIn_of_follow (start : String) (hd : ∀ sub, d ≠ .record sub)
    (h : follow (path ++ [name]) es = some d) :
    (start ++ (startOf path ++ name), d) ∈ leavesIn start es := by
  induction path generalizing es start with
  | nil =>
    -- What is no table is a leaf, and the only one at its place.
    have hleaf : leavesAt (start ++ name) d = [(start ++ name, d)] := by
      cases d with
      | record sub => exact absurd rfl (hd sub)
      | _ => rfl
    rw [startOf, List.map_nil, String.join_nil, String.empty_append]
    exact leavesAt_subset_leavesIn (mem_of_lookup_eq_some h) (hleaf ▸ List.mem_singleton_self _)
  | cons first path ih =>
    have hne : path ++ [name] ≠ [] :=
      List.append_ne_nil_of_right_ne_nil path (List.cons_ne_nil _ _)
    rw [List.cons_append, follow_cons hne, tableAt] at h
    split at h
    · rename_i sub hsub
      refine leavesAt_subset_leavesIn (mem_of_lookup_eq_some hsub) ?_
      have hmem := ih (start ++ first ++ ".") h
      rw [startOf_cons]
      simpa only [String.append_assoc, leavesAt] using hmem
    · rw [follow_nil] at h
      cases h

/-- So the key of the path is among those of the tree. -/
theorem mem_keys_of_follow (hd : ∀ sub, d ≠ .record sub)
    (h : follow (path ++ [name]) es = some d) :
    keyOf (path ++ [name]) ∈ keys es := by
  have hmem := mem_leavesIn_of_follow "" hd h
  rw [String.empty_append, ← keyOf_concat] at hmem
  exact List.mem_map_of_mem (f := (·.1)) hmem

/-- What is known of a key that a tidy tree lists: it is made of names, and leads to a leaf. -/
structure LeadsTo (es : Settings) (key : String) (d : Data) : Prop where
  lower : Text.lowerString key = key
  names : ∀ n ∈ keyNames key, IsName n
  key_eq : keyOf (keyNames key) = key
  follow_eq : follow (keyNames key) es = some d
  leaf : IsLeaf d

/-- A leaf that is listed is where its key leads to. The names on the way are in lower case and
have no dots, so cutting the key at its dots gives them back. -/
theorem Tidy.leadsTo (h : Tidy es) (hmem : (key, d) ∈ leaves es) : LeadsTo es key d := by
  obtain ⟨hlower, hleaf⟩ := leaf_of_mem_leavesIn es h.loweredEntries isLower_empty hmem
  obtain ⟨path, name, rfl, hpath, hname, hfollow⟩ := exists_path_of_mem_leavesIn h hmem
  rw [String.empty_append] at *
  have hnames := keyNames_startOf hpath hname
  refine ⟨hlower.lowerString, ?_, ?_, ?_, hleaf⟩
  · exact fun n hn => isName_of_mem_keyNames hlower hn
  · rw [hnames, keyOf_concat]
  · rw [hnames, hfollow]

/-- The same for a key that is listed. -/
theorem Tidy.exists_leadsTo (h : Tidy es) (hmem : key ∈ keys es) : ∃ d, LeadsTo es key d := by
  obtain ⟨⟨k, d⟩, hleaf, rfl⟩ := List.mem_map.1 hmem
  exact ⟨d, h.leadsTo hleaf⟩

/-- A key whose first name is new is not listed. A key determines its names, since none of them
has a dot. Were it listed, its first name would be one in the tree. -/
theorem Tidy.notMem_keysIn (h : Tidy rest) (start : String) (path : List String)
    (hpath : ∀ n ∈ path, IsName n) (hname : IsName name)
    (hfresh : ∀ n ∈ (path ++ [name]).head?, n ∉ rest.map (·.1)) :
    start ++ (startOf path ++ name) ∉ (leavesIn start rest).map (·.1) := by
  intro hmem
  obtain ⟨⟨key, d⟩, hmem, hkey⟩ := List.mem_map.1 hmem
  obtain ⟨path', name', hkey', hpath', hname', hfollow⟩ := exists_path_of_mem_leavesIn h hmem
  have hsame : startOf path ++ name = startOf path' ++ name' :=
    String.append_right_inj start |>.1 (hkey.symm.trans hkey')
  have hnames : path ++ [name] = path' ++ [name'] := by
    rw [← keyNames_startOf hpath hname, hsame, keyNames_startOf hpath' hname']
  rw [← hnames] at hfollow
  obtain ⟨first, more, hcons⟩ :=
    List.exists_cons_of_ne_nil
      (List.append_ne_nil_of_right_ne_nil path (List.cons_ne_nil name []))
  rw [hcons] at hfollow hfresh
  exact hfresh first rfl (mem_of_follow hfollow)

/-- **A tidy tree lists each key once.** The keys under a name start with it, and those of the
entries behind start with other names. Under the name itself, they are the keys of a smaller
tree. -/
theorem Tidy.nodup_keysIn (h : Tidy es) (start : String) :
    ((leavesIn start es).map (·.1)).Nodup := by
  induction h generalizing start with
  | nil => exact List.nodup_nil
  | @leaf name d rest hname hfresh hd hrest ih =>
    rw [leavesIn, hd.leavesAt, List.singleton_append, List.map_cons, List.nodup_cons]
    refine ⟨?_, ih start⟩
    have hnot := hrest.notMem_keysIn start [] (List.forall_mem_nil _) hname
      fun n hn => Option.mem_some.1 hn ▸ hfresh
    rwa [startOf, List.map_nil, String.join_nil, String.empty_append] at hnot
  | @table name sub rest hname hfresh hne hsub hrest ihsub ih =>
    rw [leavesIn, leavesAt, List.map_append, List.nodup_append]
    refine ⟨ihsub _, ih start, fun key hkey other hother heq => ?_⟩
    subst heq
    obtain ⟨⟨k, d⟩, hmem, rfl⟩ := List.mem_map.1 hkey
    obtain ⟨path, last, rfl, hpath, hlast, -⟩ := exists_path_of_mem_leavesIn hsub hmem
    have hnot := hrest.notMem_keysIn start (name :: path)
      (List.forall_mem_cons.2 ⟨hname, hpath⟩) hlast fun n hn => Option.mem_some.1 hn ▸ hfresh
    rw [startOf_cons] at hnot
    exact hnot (by simpa only [String.append_assoc] using hother)

/-! ## Searches

A search tries names with dots in them as well, the longest first. A tidy tree has no such
names, so each step takes the shortest, which is the first name of the path. -/

/-- **A search finds what a path leads to**, unless a value stands where the path goes on. If
the path leads somewhere, the search finds it. If it does not, no step of the search succeeds:
names with dots are in no tidy table, and behind the first name the rest of the path leads
nowhere either. -/
theorem search_eq_follow (h : Tidy es) (hopen : blocks path es = false) :
    search path.length (.record es) path = follow path es := by
  cases hfollow : follow path es with
  | some d => exact search_of_follow h hfollow
  | none =>
    induction path generalizing es with
    | nil => rfl
    | cons name path ih =>
      obtain ⟨longer, hsplits, hdotted⟩ := splits_cons name path
      rw [List.length_cons, search, hsplits, List.findSome?_eq_none_iff]
      intro s hs
      rcases List.mem_append.1 hs with hs | hs
      · have hnone : child? (.record es) s.1 = none :=
          lookup_of_notMem fun hmem => (h.isName hmem).notMem (hdotted s hs)
        rw [hnone]
      · rw [List.mem_singleton.1 hs]
        have hchild : child? (.record es) name = es.lookup name := rfl
        rw [hchild]
        cases path with
        | nil =>
          have hnone : es.lookup name = none := hfollow
          rw [hnone]
        | cons next rest =>
          rw [blocks] at hopen
          rw [follow] at hfollow
          cases hlookup : es.lookup name with
          | none => rfl
          | some e =>
            rw [hlookup] at hopen hfollow
            cases e with
            | record sub => exact ih (h.of_lookup hlookup) hopen hfollow
            | _ => cases hopen

/-! ## Paths through layers

Laying a tree over another goes entry by entry, so under a name there is what the upper tree has
there, laid over what the lower one has. -/

/-- What an entry holds after others were laid over it. Each name is in the upper tree once, so
no entry is laid over twice. -/
theorem lookup_overlayEntries (lower : Settings) (h : (upper.map (·.1)).Nodup)
    (name : String) : (overlayEntries upper lower).lookup name
      = (upper.lookup name).elim (lower.lookup name)
      fun d => some ((lower.lookup name).elim d (overlay d)) := by
  induction upper generalizing lower with
  | nil => rfl
  | cons first upper ih =>
    obtain ⟨n, d⟩ := first
    rw [List.map_cons, List.nodup_cons] at h
    rw [overlayEntries, ih _ h.2]
    by_cases hname : name = n
    · subst hname
      rw [lookup_of_notMem h.1, List.lookup_cons_self, Option.elim_none, Option.elim_some]
      cases lower.lookup name with
      | none => exact lookup_set_self lower name d
      | some e => exact lookup_set_self lower name _
    · have hset : ∀ e, (lower.set n e).lookup name = lower.lookup name :=
        lookup_set_of_ne lower hname
      rw [List.lookup_cons, beq_eq_false_iff_ne.2 hname]
      cases lower.lookup n with
      | none => rw [hset]
      | some e => rw [hset]

/-- No value stands on a path, and no table at its end. Then what the path leads to is a
setting, or nothing. -/
def Settles (path : List String) (es : Settings) : Prop :=
  blocks path es = false ∧ ∀ sub, follow path es ≠ some (.record sub)

/-- Of two settings the upper one is kept. -/
theorem overlay_eq_left (hd : ∀ sub, d ≠ .record sub) (he : ∀ sub, e ≠ .record sub) :
    overlay d e = d := by
  cases e with
  | record sub => exact absurd rfl (he sub)
  | _ => cases d <;> rfl

/-- A path that goes on settles in the table under its first name, and there is no value under
that name. -/
theorem Settles.of_tableAt (hne : path ≠ []) (h : Settles (name :: path) es) :
    Settles path (es.tableAt name) ∧ ∀ d, es.lookup name = some d → ∃ sub, d = .record sub := by
  obtain ⟨hopen, hend⟩ := h
  rw [follow_cons hne] at hend
  obtain ⟨next, rest, rfl⟩ := List.exists_cons_of_ne_nil hne
  rw [blocks] at hopen
  rw [tableAt] at hend ⊢
  cases hlookup : es.lookup name with
  | none =>
    exact ⟨⟨by cases rest <;> rfl, by rw [follow_nil]; exact fun _ h => by cases h⟩,
      fun d h => by cases h⟩
  | some d =>
    rw [hlookup] at hopen hend
    cases d with
    | record sub =>
      exact ⟨⟨hopen, hend⟩, fun d hd => ⟨sub, (Option.some.inj hd).symm⟩⟩
    | _ => cases hopen

/-- **The upper of two trees decides about every setting that it holds.** At the last name both
trees have settings, or none. On the way both have tables, or none, and the tables are laid over
each other. -/
theorem follow_overlayEntries (hupper : Tidy upper) (hu : Settles path upper)
    (hl : Settles path lower) :
    follow path (overlayEntries upper lower) = (follow path upper).or (follow path lower) := by
  induction path generalizing upper lower with
  | nil => rfl
  | cons name path ih =>
    have hlookup := lookup_overlayEntries lower hupper.nodup name
    by_cases hne : path = []
    · -- At the last name the entry of the upper tree is taken if there is one.
      subst hne
      have hfollow : ∀ es : Settings, follow [name] es = es.lookup name := fun _ => rfl
      obtain ⟨-, hu⟩ := hu
      obtain ⟨-, hl⟩ := hl
      simp only [hfollow] at hu hl ⊢
      rw [hlookup]
      cases hd : upper.lookup name with
      | none => rfl
      | some d =>
        cases he : lower.lookup name with
        | none => rfl
        | some e =>
          rw [hd] at hu
          rw [he] at hl
          rw [Option.elim_some, Option.elim_some,
            overlay_eq_left (fun sub h => hu sub (congrArg some h))
            fun sub h => hl sub (congrArg some h), Option.some_or]
    · obtain ⟨hu', hupperTable⟩ := hu.of_tableAt hne
      obtain ⟨hl', hlowerTable⟩ := hl.of_tableAt hne
      rw [follow_cons hne, follow_cons hne, follow_cons hne]
      rw [tableAt, hlookup]
      cases hd : upper.lookup name with
      | none =>
        -- Only the lower tree goes on here.
        have hnone : upper.tableAt name = [] := by rw [tableAt, hd]
        rw [hnone, follow_nil, Option.none_or]
        rfl
      | some d =>
        obtain ⟨sub, rfl⟩ := hupperTable d hd
        have hsub : upper.tableAt name = sub := by rw [tableAt, hd]
        rw [hsub] at hu' ⊢
        cases he : lower.lookup name with
        | none =>
          have hnone : lower.tableAt name = [] := by rw [tableAt, he]
          rw [hnone, follow_nil, Option.or_none]
          rfl
        | some e =>
          obtain ⟨inner, rfl⟩ := hlowerTable e he
          -- Both go on with tables, and those are laid over each other.
          have hinner : lower.tableAt name = inner := by rw [tableAt, he]
          rw [hinner] at hl' ⊢
          exact ih (hupper.of_lookup hd) hu' hl'

end Exemplar.Settings
