import Exemplar.Config.Layers
import Exemplar.Proofs.Lookup

/-!
# Settings and their keys

A tree of settings can be given by its leaves, each with a key made of the names on the way to
it. That loses nothing as long as the names can be told from the dots between them, no table has
two entries for a name, and none is empty (`Tidy`): the leaves lead back to the tree, and each
is found under its key.

Both directions are shown by following the tree. From leaves to the tree: the leaves of a table
are listed one behind the other, so they are put one behind the other at the place of the table,
and what has been put there before stays (`foldl_leavesIn`). From a key to its leaf: a key is
cut at its dots into the names it was made of (`keyNames_startOf`), and the search for it goes
from name to name, since no name in the tree has a dot by which a longer step could be taken
(`search_of_follow`).

At the end, an environment in which nothing is set is looked at: then a setting that a file
holds is in force as it is, and of the built-in settings those are that the file neither
replaces nor hides.
-/

namespace Exemplar.Settings

variable {es sub rest more : Settings} {name key start : String} {d : Data} {path : List String}

/-! ## Names and keys

A name that stands for itself can be found again in a key. Names in upper case cannot, since
keys are put into lower case before they are looked up. -/

/-- A name that stands for itself in a key: it is in lower case and has no dot. -/
def IsName (name : String) : Prop := ∀ c ∈ name.toList, c ≠ '.' ∧ Text.lowerChar c = c

instance : Decidable (IsName name) :=
  decidable_of_iff (name.toList.all (fun c => c != '.' && Text.lowerChar c == c) = true) (by
    simp [IsName])

/-- The text that starts the keys in the table at a path. -/
def startOf (path : List String) : String := String.join (path.map (· ++ "."))

/-- The names of a path with a dot behind each. -/
theorem startOf_cons (name : String) (path : List String) :
    startOf (name :: path) = name ++ "." ++ startOf path := by
  rw [startOf, List.map_cons, String.join_cons]
  rfl

/-- One more name at the end. -/
theorem startOf_concat (path : List String) (name : String) :
    startOf (path ++ [name]) = startOf path ++ name ++ "." := by
  rw [startOf, List.map_append, String.join_append, List.map_singleton,
    String.join_cons, String.join_nil, String.append_empty, String.append_assoc]
  rfl

/-- A text without the mark is one part. -/
theorem splitAt_of_notMem {mark : Char} {s : List Char} (h : mark ∉ s) :
    Text.splitAt mark s = [s] := by
  induction s with
  | nil => rfl
  | cons c rest ih =>
    rw [List.mem_cons, not_or] at h
    rw [Text.splitAt, if_neg (by simpa using fun hc : c = mark => h.1 hc.symm), ih h.2]

/-- Up to the first mark there is one part, and the others are those of the rest. -/
theorem splitAt_append {mark : Char} {s : List Char} (h : mark ∉ s) (t : List Char) :
    Text.splitAt mark (s ++ mark :: t) = s :: Text.splitAt mark t := by
  induction s with
  | nil => rw [List.nil_append, Text.splitAt, if_pos (beq_self_eq_true mark)]
  | cons c rest ih =>
    rw [List.mem_cons, not_or] at h
    rw [List.cons_append, Text.splitAt,
      if_neg (by simpa using fun hc : c = mark => h.1 hc.symm), ih h.2]

/-- No dot stands in a name. -/
theorem IsName.notMem (h : IsName name) : '.' ∉ name.toList := fun hmem => (h '.' hmem).1 rfl

/-- **The names of a key are those it was made of.** Behind each name of the path stands a dot,
and none in it, so cutting at the dots gives the names. -/
theorem keyNames_startOf (hpath : ∀ n ∈ path, IsName n) (hname : IsName name) :
    keyNames (startOf path ++ name) = path ++ [name] := by
  induction path with
  | nil =>
    rw [startOf, List.map_nil, String.join_nil, String.empty_append, keyNames, Text.splitString,
      splitAt_of_notMem hname.notMem, List.map_singleton, String.ofList_toList]
    rfl
  | cons n path ih =>
    obtain ⟨hn, hrest⟩ := List.forall_mem_cons.1 hpath
    have hchars : (startOf (n :: path) ++ name).toList =
        n.toList ++ '.' :: (startOf path ++ name).toList := by
      rw [startOf_cons, String.toList_append, String.toList_append, String.toList_append,
        String.toList_append, List.append_assoc, List.append_assoc]
      rfl
    have hmore := ih hrest
    rw [keyNames, Text.splitString] at hmore ⊢
    rw [hchars, splitAt_append hn.notMem, List.map_cons, hmore, String.ofList_toList]
    rfl

/-- Lower case is a matter of each character by itself. -/
theorem lowerString_append (s t : String) :
    Text.lowerString (s ++ t) = Text.lowerString s ++ Text.lowerString t := by
  rw [Text.lowerString, String.toList_append, List.map_append, String.ofList_append]
  rfl

/-- A name is in lower case. -/
theorem IsName.lowerString (h : IsName name) : Text.lowerString name = name := by
  rw [Text.lowerString, List.map_congr_left fun c hc => (h c hc).2,
    List.map_id', String.ofList_toList]

/-- And so is what keys start with. -/
theorem lowerString_startOf (hpath : ∀ n ∈ path, IsName n) :
    Text.lowerString (startOf path) = startOf path := by
  induction path with
  | nil => rfl
  | cons n path ih =>
    obtain ⟨hn, hrest⟩ := List.forall_mem_cons.1 hpath
    rw [startOf_cons, lowerString_append, lowerString_append, hn.lowerString, ih hrest]
    rfl

/-! ## Tidy trees -/

/-- Data that is a setting: no table, and without names in other than lower case. -/
structure IsLeaf (d : Data) : Prop where
  /-- It is no table. -/
  not_record : ∀ es, d ≠ .record es
  /-- No name in it has to be changed. -/
  lowered : lowered d = d

/-- A tree of settings whose names stand for themselves, without two entries for a name or an
empty table. -/
inductive Tidy : Settings → Prop
  /-- Without settings. -/
  | nil : Tidy []
  /-- With one more setting. -/
  | leaf {name : String} {d : Data} {rest : Settings} (hname : IsName name)
    (hfresh : name ∉ rest.map (·.1)) (hd : IsLeaf d) (hrest : Tidy rest) :
    Tidy ((name, d) :: rest)
  /-- With one more table. -/
  | table {name : String} {sub rest : Settings} (hname : IsName name)
      (hfresh : name ∉ rest.map (·.1))
    (hne : sub ≠ []) (hsub : Tidy sub) (hrest : Tidy rest) : Tidy ((name, .record sub) :: rest)

/-- A leaf has one setting below it: itself. -/
theorem IsLeaf.leavesAt (h : IsLeaf d) (key : String) : leavesAt key d = [(key, d)] := by
  cases d with
  | record es => exact absurd rfl (h.not_record es)
  | _ => rfl

/-- Texts are leaves. -/
theorem isLeaf_text (t : Text) : IsLeaf (.text t) := ⟨nofun, rfl⟩

/-- Numbers are leaves. -/
theorem isLeaf_int (n : Int) : IsLeaf (.int n) := ⟨nofun, rfl⟩

/-- Truth values are leaves. -/
theorem isLeaf_bool (b : Bool) : IsLeaf (.bool b) := ⟨nofun, rfl⟩

/-- Lists are leaves, if no name in an item has to be changed. -/
theorem isLeaf_list {items : List Data} (h : ∀ d ∈ items, lowered d = d) :
    IsLeaf (.list items) := by
  have hitems : loweredItems items = items := by
    induction items with
    | nil => rfl
    | cons d items ih =>
      obtain ⟨hd, hrest⟩ := List.forall_mem_cons.1 h
      rw [loweredItems, hd, ih hrest]
  exact ⟨nofun, by rw [lowered, hitems]⟩

/-- Lists of texts have no names in them. -/
theorem isLeaf_strings (l : List String) : IsLeaf (Data.strings l) :=
  isLeaf_list (List.forall_mem_map.2 fun s _ => (isLeaf_text (Text.ofString s)).lowered)

/-- Two tidy trees without a name in common make one. -/
theorem Tidy.append (h : Tidy es) (hmore : Tidy more)
    (hfresh : ∀ name ∈ es.map (·.1), name ∉ more.map (·.1)) : Tidy (es ++ more) := by
  have hboth : ∀ {name : String} {rest : Settings}, name
      ∉ rest.map (·.1) → name ∉ more.map (·.1) →
      name ∉ (rest ++ more).map (·.1) := fun hrest hmore => by
    rw [List.map_append, List.mem_append]
    exact not_or.2 ⟨hrest, hmore⟩
  induction h with
  | nil => exact hmore
  | leaf hname hrest hd _ ih =>
    obtain ⟨hhead, htail⟩ := List.forall_mem_cons.1 hfresh
    exact .leaf hname (hboth hrest hhead) hd (ih htail)
  | table hname hrest hne hinner _ _ ih =>
    obtain ⟨hhead, htail⟩ := List.forall_mem_cons.1 hfresh
    exact .table hname (hboth hrest hhead) hne hinner (ih htail)

/-- Each name in a tidy tree stands for itself. -/
theorem Tidy.isName (h : Tidy es) (hmem : name ∈ es.map (·.1)) : IsName name := by
  induction h with
  | nil => exact absurd hmem List.not_mem_nil
  | leaf hname _ _ _ ih | table hname _ _ _ _ _ ih =>
    rw [List.map_cons, List.mem_cons] at hmem
    exact hmem.elim (fun heq => heq ▸ hname) ih

/-- And each is there once. -/
theorem Tidy.nodup (h : Tidy es) : (es.map (·.1)).Nodup := by
  induction h with
  | nil => exact List.nodup_nil
  | leaf _ hfresh _ _ ih | table _ hfresh _ _ _ _ ih => exact List.nodup_cons.2 ⟨hfresh, ih⟩

/-- A table in a tidy tree is tidy. -/
theorem Tidy.of_lookup (h : Tidy es) (hsub : es.lookup name = some (.record sub)) :
    Tidy sub := by
  induction h with
  | nil => cases hsub
  | @leaf n d rest hname _ hd _ ih =>
    rw [List.lookup_cons] at hsub
    split at hsub
    · exact absurd (Option.some.inj hsub) (hd.not_record sub)
    · exact ih hsub
  | @table n inner rest hname _ _ hinner _ _ ih =>
    rw [List.lookup_cons] at hsub
    split at hsub
    · rwa [← Data.record.inj (Option.some.inj hsub)]
    · exact ih hsub

/-- **The names of a tidy tree are in lower case.** So putting them into lower case changes
nothing, and no two of them become one. -/
theorem Tidy.loweredEntries (h : Tidy es) : loweredEntries es = es := by
  have hkeep : ∀ {name : String} {d : Data} {rest : Settings},
      IsName name → name ∉ rest.map (·.1) →
      Settings.loweredEntries rest = rest → lowered d = d →
      Settings.loweredEntries ((name, d) :: rest) = (name, d) :: rest := by
    intro name d rest hname hfresh hrest hd
    rw [Settings.loweredEntries, hname.lowerString, hrest, lookup_of_notMem hfresh, hd]
    rfl
  induction h with
  | nil => rfl
  | leaf hname hfresh hd _ ih => exact hkeep hname hfresh ih hd.lowered
  | table hname hfresh _ _ _ ihsub ih =>
    exact hkeep hname hfresh ih (by rw [Settings.lowered, ihsub])

/-! ## From leaves to trees

A setting with a new name goes to the end. So settings that are listed table by table are put
into the last table of the tree, which grows. -/

/-- Setting an entry is what it is for every list of named things. -/
theorem set_eq_setKey (name : String) (d : Data) (es : Settings) :
    es.set name d = setKey name d es := by
  induction es with
  | nil => rfl
  | cons e rest ih => rw [show e = (e.1, e.2) from rfl, set, setKey, ih]

/-- A new entry goes to the end. -/
theorem set_of_notMem (h : name ∉ es.map (·.1)) : es.set name d = es ++ [(name, d)] :=
  (set_eq_setKey name d es).trans (setKey_of_notMem h)

/-- An entry at the end can be replaced there. -/
theorem set_concat {other : Data} (h : name ∉ es.map (·.1)) :
    set name d (es ++ [(name, other)]) = es ++ [(name, d)] :=
  (set_eq_setKey name d _).trans (setKey_concat h)

/-- A tree in which something was put is not empty. -/
theorem insert_ne_nil (hne : path ≠ []) : insert d path es ≠ [] := by
  have hset : ∀ name e, set name e es ≠ [] := fun name e =>
    set_eq_setKey name e es ▸ setKey_ne_nil name e es
  cases path with
  | nil => exact absurd rfl hne
  | cons name path =>
    cases path with
    | nil => exact hset name d
    | cons next rest => exact hset name _

/-- Settings with a table behind them, once there is something in it. -/
def withTable (es : Settings) (name : String) (sub : Settings) : Settings :=
  if sub = [] then es else es ++ [(name, Data.record sub)]

/-- What is put under a path that starts with the name of the last table is put into that table,
which comes into being with its first entry. -/
theorem insert_withTable (hfresh : name ∉ es.map (·.1)) (hne : path ≠ []) :
    insert d (name :: path) (withTable es name sub) = withTable es name (insert d path sub) := by
  obtain ⟨next, rest, rfl⟩ := List.exists_cons_of_ne_nil hne
  rw [withTable, withTable, if_neg (insert_ne_nil hne)]
  split
  · rename_i hsub
    rw [insert, tableAt, lookup_of_notMem hfresh, set_of_notMem hfresh, hsub]
  · rw [insert, tableAt, lookup_concat hfresh, set_concat hfresh]

/-- A path leads to a place in a tree: what is inserted below it is inserted there. -/
def Reaches (path : List String) (tree : Settings → Settings) : Prop :=
  ∀ d names sub, names ≠ [] → insert d (path ++ names) (tree sub) = tree (insert d names sub)

/-- A path that leads to a place leads on to a table at the end of it. -/
theorem Reaches.withTable {tree : Settings → Settings} (h : Reaches path tree)
    (hfresh : name ∉ es.map (·.1)) : Reaches (path ++ [name]) fun sub =>
    tree (withTable es name sub) :=
  fun d names sub hne => by
    rw [List.append_assoc, h d _ _ (List.append_ne_nil_of_left_ne_nil (List.cons_ne_nil _ _) _)]
    exact congrArg tree (insert_withTable hfresh hne)

/-- **The leaves of a tree are put where a path leads to**, one behind the other. The induction
is on the tidy tree. A setting is put at the place the path leads to; the settings of a table
are put into that table, to which the path with one more name leads. -/
theorem foldl_leavesIn (h : Tidy es) (hpath : ∀ n ∈ path, IsName n) {tree : Settings → Settings}
    (hreach : Reaches path tree) (before : Settings)
    (hnames : (before.map (·.1) ++ es.map (·.1)).Nodup) :
    (leavesIn (startOf path) es).foldl (fun es e => insert e.2 (keyNames e.1) es) (tree before) =
      tree (before ++ es) := by
  induction h generalizing path tree before with
  | nil =>
    rw [List.append_nil]
    rfl
  | @leaf name d rest hname _ hd _ ih =>
    -- The name is new, so the setting is put behind the others.
    have hfresh : name ∉ before.map (·.1) := fun hmem =>
      (List.nodup_append.1 hnames).2.2 name hmem name List.mem_cons_self rfl
    rw [leavesIn, hd.leavesAt, List.singleton_append, List.foldl_cons,
      keyNames_startOf hpath hname, hreach d [name] before (List.cons_ne_nil _ _),
      insert, set_of_notMem hfresh]
    have hrest := ih hpath hreach (before ++ [(name, d)]) (by
      rw [List.map_append, List.append_assoc]
      exact hnames)
    rwa [List.append_assoc] at hrest
  | @table name sub rest hname _ hne htidy _ ihsub ih =>
    have hfresh : name ∉ before.map (·.1) := fun hmem =>
      (List.nodup_append.1 hnames).2.2 name hmem name List.mem_cons_self rfl
    -- The settings of the table are put into it first, and then those behind it.
    have hinside : ∀ n ∈ path ++ [name], IsName n :=
      List.forall_mem_append.2 ⟨hpath, List.forall_mem_singleton.2 hname⟩
    have hsub := ihsub hinside (hreach.withTable hfresh) [] htidy.nodup
    have hrest := ih hpath hreach (before ++ [(name, Data.record sub)]) (by
      rw [List.map_append, List.append_assoc]
      exact hnames)
    rw [startOf_concat, withTable, if_pos rfl, List.nil_append, withTable, if_neg hne] at hsub
    rw [leavesIn, leavesAt, List.foldl_append, hsub, hrest, List.append_assoc]
    rfl

/-- **A tree is given by its leaves.** -/
theorem ofLeaves_leaves (h : Tidy es) : ofLeaves (leaves es) = es :=
  have hroot : Reaches [] id := fun _ _ _ _ => rfl
  foldl_leavesIn h (List.forall_mem_nil _) hroot [] h.nodup

/-! ## From keys to leaves

A path is followed by its first name into a table and from there by the rest. -/

/-- What a path leads to has an entry for its first name. -/
theorem mem_of_follow (h : follow (name :: path) es = some d) : name ∈ es.map (·.1) := by
  cases path with
  | nil => exact mem_of_lookup h
  | cons next rest =>
    rw [follow] at h
    split at h
    · exact mem_of_lookup ‹_›
    · cases h

/-- What a path leads to is also found behind an entry of a new name. -/
theorem follow_cons_of_notMem {first : String × Data} (hfresh : first.1 ∉ es.map (·.1))
    (h : follow path es = some d) : follow path (first :: es) = some d := by
  cases path with
  | nil => cases h
  | cons name path =>
    have hkey : (name == first.1) = false :=
      beq_eq_false_iff_ne.2 fun heq => hfresh (heq ▸ mem_of_follow h)
    have hlookup : (first :: es).lookup name = es.lookup name := by
      rw [show first = (first.1, first.2) from rfl, List.lookup_cons, hkey]
    cases path with
    | nil => exact hlookup.trans h
    | cons next rest =>
      rw [follow] at h ⊢
      rwa [hlookup]

/-- A path that starts with the name of the first table goes on in it. -/
theorem follow_cons_self (name next : String) (path : List String) (inner rest : Settings) :
    follow (name :: next :: path) ((name, .record inner) :: rest)
      = follow (next :: path) inner := by
  rw [follow, List.lookup_cons_self]

/-- **The key of a leaf leads to it.** The induction is on the tidy tree. A leaf at the top has
its own name for its key; one in a table has the name of the table in front of it; and no name
is met twice, so what comes first in a table does not hide what is behind it. -/
theorem exists_path_of_mem_leavesIn (h : Tidy es) (hmem : (key, d) ∈ leavesIn start es) :
    ∃ path name, key = start ++ (startOf path ++ name) ∧ (∀ n ∈ path, IsName n) ∧ IsName name ∧
      follow (path ++ [name]) es = some d := by
  induction h generalizing start with
  | nil => cases hmem
  | @leaf name e rest hname hfresh he _ ih =>
    rw [leavesIn, he.leavesAt, List.singleton_append, List.mem_cons] at hmem
    rcases hmem with heq | hmem
    · obtain ⟨rfl, rfl⟩ := Prod.mk.inj heq
      exact ⟨[], name, by rw [startOf, List.map_nil, String.join_nil, String.empty_append],
        List.forall_mem_nil _, hname, List.lookup_cons_self⟩
    · obtain ⟨path, last, hkey, hpath, hlast, hfollow⟩ := ih hmem
      exact ⟨path, last, hkey, hpath, hlast, follow_cons_of_notMem hfresh hfollow⟩
  | @table name inner rest hname hfresh _ _ _ ihinner ih =>
    rw [leavesIn, leavesAt, List.mem_append] at hmem
    rcases hmem with hmem | hmem
    · obtain ⟨path, last, hkey, hpath, hlast, hfollow⟩ := ihinner hmem
      refine ⟨name :: path, last, ?_, List.forall_mem_cons.2 ⟨hname, hpath⟩, hlast, ?_⟩
      · rw [hkey, startOf_cons]
        simp only [String.append_assoc]
      · obtain ⟨next, more, hcons⟩ :=
          List.exists_cons_of_ne_nil
            (List.append_ne_nil_of_right_ne_nil path (List.cons_ne_nil last []))
        rw [List.cons_append, hcons, follow_cons_self, ← hcons, hfollow]
    · obtain ⟨path, last, hkey, hpath, hlast, hfollow⟩ := ih hmem
      exact ⟨path, last, hkey, hpath, hlast, follow_cons_of_notMem hfresh hfollow⟩

/-- The last way to split a path takes one name, and every other one takes a dot with it. -/
theorem splits_cons (name : String) (path : List String) :
    ∃ longer, splits (name :: path) = longer ++ [(name, path)] ∧
    ∀ s ∈ longer, '.' ∈ s.1.toList := by
  cases path with
  | nil => exact ⟨[], rfl, List.forall_mem_nil _⟩
  | cons next rest =>
    refine ⟨_, rfl, fun s hs => ?_⟩
    obtain ⟨t, -, rfl⟩ := List.mem_map.1 hs
    rw [String.toList_append, String.toList_append]
    exact List.mem_append_left _ (List.mem_append_right _ List.mem_cons_self)

/-- **In a tidy tree, a search goes from name to name.** Names with a dot in them are tried
first and not found, as a tidy tree has none. -/
theorem search_of_follow (h : Tidy es) (hfollow : follow path es = some d) :
    search path.length (.record es) path = some d := by
  induction path generalizing es with
  | nil => cases hfollow
  | cons name path ih =>
    obtain ⟨longer, hsplits, hdotted⟩ := splits_cons name path
    rw [List.length_cons, search, hsplits, List.findSome?_append,
      List.findSome?_eq_none_iff.2 ?_, Option.none_or, List.findSome?_singleton]
    · cases path with
      | nil =>
        have hchild : child? (.record es) name = some d := hfollow
        rw [hchild]
        rfl
      | cons next rest =>
        rw [follow] at hfollow
        split at hfollow
        · rename_i inner hinner
          have hchild : child? (.record es) name = some (.record inner) := hinner
          rw [hchild]
          exact ih (h.of_lookup hinner) hfollow
        · cases hfollow
    · intro s hs
      have hnone : child? (.record es) s.1 = none :=
        lookup_of_notMem fun hmem => (h.isName hmem).notMem (hdotted s hs)
      rw [hnone]

/-- A name that is not there is not found. -/
theorem search_of_notMem (h : name ∉ es.map (·.1)) : search 1 (.record es) [name] = none := by
  have hchild : child? (.record es) name = none := lookup_of_notMem h
  rw [search, splits, List.findSome?_singleton, hchild]

/-! ## Values without an environment

The files are asked first, and then what is built in, unless a value in the files stands where
the path of the key goes on. -/

/-- Without an environment, a key has the value that the files hold and otherwise, unless they
hide it, the one that is built in. -/
theorem value?_nil (hpath : ∀ n ∈ path, IsName n) (hname : IsName name) (files : Settings) :
    value? [] files (startOf path ++ name) =
      (search (path ++ [name]).length (.record files) (path ++ [name])).or
        (if blocks (path ++ [name]) files then none else follow (path ++ [name]) builtIn) := by
  have hunset : ∀ v, Environment.value? [] v = none := fun _ => rfl
  have hopen : ((tablePaths (path ++ [name])).any fun p =>
      (Environment.value? [] (variableName (keyOf p))).isSome) = false :=
    List.any_eq_false.2 fun p _ => by rw [hunset]; exact Bool.false_ne_true
  rw [value?, lowerString_append, lowerString_startOf hpath, hname.lowerString,
    keyNames_startOf hpath hname, hopen, hunset]
  cases search (path ++ [name]).length (.record files) (path ++ [name]) <;> rfl

/-- **Without an environment, a leaf is the value of its key.** -/
theorem value?_of_mem_leaves (h : Tidy es) (hmem : (key, d) ∈ leaves es) :
    value? [] es key = some d := by
  obtain ⟨path, name, rfl, hpath, hname, hfollow⟩ := exists_path_of_mem_leavesIn h hmem
  rw [String.empty_append, value?_nil hpath hname, search_of_follow h hfollow, Option.some_or]

/-- Without an environment, a name that the files do not mention has its value built in. -/
theorem value?_of_notMem (hname : IsName name) (hfresh : name ∉ es.map (·.1)) :
    value? [] es name = builtIn.lookup name := by
  have h := value?_nil (List.forall_mem_nil _) hname es
  rw [startOf, List.map_nil, String.join_nil, String.empty_append] at h
  rw [h, List.nil_append, List.length_singleton, search_of_notMem hfresh, Option.none_or]
  rfl

/-- The leaves of some entries and then those of others. -/
theorem leavesIn_append (start : String) (es more : Settings) :
    leavesIn start (es ++ more) = leavesIn start es ++ leavesIn start more := by
  induction es with
  | nil => rfl
  | cons e es ih =>
    obtain ⟨name, d⟩ := e
    rw [List.cons_append, leavesIn, leavesIn, ih, List.append_assoc]

/-- And so their keys. -/
theorem keys_append (es more : Settings) : keys (es ++ more) = keys es ++ keys more := by
  rw [keys, leaves, leavesIn_append, List.map_append]
  rfl

/-- The keys with a value built in that settings with the given keys neither replace nor hide. -/
def leftKeys (own : List String) : List String :=
  (keys builtIn).filter fun k =>
    !own.contains k && !(tablePaths (keyNames k)).any fun p => own.contains (keyOf p)

/-- The keys with a value are those of the files and those that are left. -/
theorem allKeys_eq (es : Settings) : allKeys es = keys es ++ leftKeys (keys es) := rfl

/-- **Settings are in force as they are**, together with those that are only built in. -/
theorem effective_nil (hes : Tidy es) (h : Tidy (es ++ more))
    (hleft : leftKeys (keys es) = keys more)
    (hmore : ∀ e ∈ leaves more, value? [] es e.1 = some e.2) : effective [] es = es ++ more := by
  have hvalue : ∀ e ∈ leaves (es ++ more), (value? [] es e.1).map (e.1, ·) = some e :=
    fun e he => by
    rw [leaves, leavesIn_append, List.mem_append] at he
    rw [he.elim (fun hmem => value?_of_mem_leaves hes hmem) (hmore e)]
    rfl
  have hleaves : (allKeys es).filterMap (fun k => (value? [] es k).map (k, ·))
      = leaves (es ++ more) := by
    rw [allKeys_eq, hleft, ← keys_append, keys, List.filterMap_map, Function.comp_def,
      List.filterMap_congr (g := some) hvalue, List.filterMap_some]
  rw [effective, hleaves, ofLeaves_leaves h]

end Exemplar.Settings
