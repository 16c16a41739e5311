import Exemplar.Proofs.Config.Paths
import Exemplar.Proofs.Config.RoundTrip

/-!
# Settings that fit the schema

There are ten settings. A tree is well typed if what it holds under their keys is of the kind
that is expected there; what else it holds does not matter. Then nothing stands in the way of a
key, and every other key of the tree is apart from it. So the effective settings, which are put
together key by key, hold under each of the ten exactly its effective value.

The keys are known, so what has to be known of them is decided: they are in lower case, each of
them is apart from the others, and each is in one of three tables or in none. Everything else is
said for any key of the schema.

What the files hold and what is built in are both well-typed trees, and laying one over the
other gives a well-typed tree. The effective settings are put together in another way, from a
list of keys with a value for each. It has to be shown that this list has all keys of the schema
that have a value, and that no other key of the list leads to the place of one of them.
-/

namespace Exemplar.Settings

variable {es upper lower files : Settings} {name key : String} {d : Data} {env : Environment}

/-! ## The schema

Each kind of value is a test on data. A tree is well typed if the tests succeed, and this can be
decided. -/

/-- Whether data is a table. -/
def isTable : Data → Bool
  | .record _ => true
  | _ => false

/-- Whether data is a text. -/
def isText : Data → Bool
  | .text _ => true
  | _ => false

/-- Whether data is a whole number. -/
def isWhole : Data → Bool
  | .int _ => true
  | _ => false

/-- Whether data is a truth value. -/
def isTruth : Data → Bool
  | .bool _ => true
  | _ => false

/-- Whether data is a list of texts. -/
def isTexts : Data → Bool
  | .list items => items.all isText
  | _ => false

/-- Whether data is an enumeration: a table in which a name is a text and values are a list of
texts, if they are there. -/
def isEnum : Data → Bool
  | .record es => (es.lookup "name").all isText && (es.lookup "values").all isTexts
  | _ => false

/-- Whether data is a list of enumerations. -/
def isEnums : Data → Bool
  | .list items => items.all isEnum
  | _ => false

/-- The key of each setting, and what is expected there. -/
def schema : List (String × (Data → Bool)) :=
  [("generate.builder_name", isText), ("generate.factory", isText), ("generate.header", isText),
    ("generate.output_dir", isText), ("generate.suffix", isText),
    ("generate.parallelism", isWhole), ("types.elementary", isTexts), ("types.enums", isEnums),
    ("log.json", isTruth), ("requires", isText)]

/-- The keys of the settings. -/
def schemaKeys : List String := schema.map (·.1)

/-- The tables that settings are in. -/
def schemaTables : List String := ["generate", "types", "log"]

/-- A tree holds tables and values of the kinds that are expected, as far as it holds them. -/
structure WellTyped (es : Settings) : Prop where
  tables : ∀ name ∈ schemaTables, (es.lookup name).all isTable = true
  values : ∀ e ∈ schema, (follow (keyNames e.1) es).all e.2 = true

instance (es : Settings) : Decidable es.WellTyped :=
  decidable_of_iff ((∀ name ∈ schemaTables, (es.lookup name).all isTable = true) ∧
    ∀ e ∈ schema, (follow (keyNames e.1) es).all e.2 = true)
      ⟨fun h => ⟨h.1, h.2⟩, fun h => ⟨h.1, h.2⟩⟩

/-- The built-in settings are well typed. -/
theorem wellTyped_builtIn : builtIn.WellTyped := by
  decide +kernel

/-- The built-in settings have all keys of the schema. -/
theorem schemaKeys_eq : schemaKeys = keys builtIn := by
  decide +kernel

/-- The keys of the settings are made of names, and each is apart from the others. -/
theorem schemaKeys_apart : ∀ k ∈ schemaKeys, Text.lowerString k = k ∧ keyOf (keyNames k) = k ∧
    (∀ n ∈ keyNames k, IsName n) ∧ ∀ k' ∈ schemaKeys, k' = k ∨
    Apart (keyNames k) (keyNames k') := by
  decide +kernel

/-- A setting is in one of the tables, or in none. -/
theorem schemaKeys_tables : ∀ k ∈ schemaKeys,
    keyNames k = [k] ∨ ∃ name ∈ schemaTables, keyNames k = [name, (keyNames k).getLastD ""] := by
  decide +kernel

/-- No setting stands where a table is expected. -/
theorem schemaKeys_ne_table : ∀ k ∈ schemaKeys, ∀ name ∈ schemaTables, keyNames k ≠ [name] := by
  decide +kernel

/-- The key of a setting goes on from those of the tables that it is in. -/
theorem schemaKeys_in : ∀ k ∈ schemaKeys, ∀ p ∈ tablePaths (keyNames k),
    ¬Apart (keyNames k) (keyNames (keyOf p)) := by
  decide +kernel

/-- No setting is a table. -/
theorem not_isTable_of_schema {e : String × (Data → Bool)} (he : e ∈ schema) (sub : Settings) :
    e.2 (.record sub) = false := by
  have hall : ∀ e ∈ schema, e.2 (.record sub) = false := by
    simp only [schema, List.forall_mem_cons]
    exact ⟨rfl, rfl, rfl, rfl, rfl, rfl, rfl, rfl, rfl, rfl, List.forall_mem_nil _⟩
  exact hall e he

/-- For each of the keys the schema says what is expected. -/
theorem exists_schema_of_mem (hkey : key ∈ schemaKeys) : ∃ e ∈ schema, e.1 = key :=
  List.mem_map.1 hkey

/-- **In a well-typed tree nothing stands in the way of a setting**, and where it is is no
table. -/
theorem WellTyped.settles (h : WellTyped es) (hkey : key ∈ schemaKeys) :
    Settles (keyNames key) es := by
  refine ⟨?_, fun sub hsub => ?_⟩
  · -- The setting is in no table, or in one, and then there is no value in place of the table.
    rcases schemaKeys_tables key hkey with hnames | ⟨name, hname, hnames⟩
    · rw [hnames]
      rfl
    · rw [hnames, blocks]
      have htable := h.tables name hname
      cases hlookup : es.lookup name with
      | none => rfl
      | some d =>
        rw [hlookup] at htable
        cases d with
        | record sub => rfl
        | _ => cases htable
  · obtain ⟨e, he, rfl⟩ := exists_schema_of_mem hkey
    have hvalue := h.values e he
    rw [hsub, Option.all_some, not_isTable_of_schema he] at hvalue
    cases hvalue

/-- **A well-typed tree over a well-typed tree is well typed.** Where both trees have a table,
the two are laid over each other; where both have a setting, the upper one is kept. -/
theorem WellTyped.overlay (htidy : Tidy upper) (hupper : WellTyped upper)
    (hlower : WellTyped lower) :
    WellTyped (overlayEntries upper lower) := by
  refine ⟨fun name hname => ?_, fun e he => ?_⟩
  · have hu := hupper.tables name hname
    have hl := hlower.tables name hname
    rw [lookup_overlayEntries lower htidy.nodup]
    -- The name of a table: in each of the two trees there is a table or nothing.
    cases hd : upper.lookup name with
    | none => exact hl
    | some d =>
      rw [hd] at hu
      cases he : lower.lookup name with
      | none => exact hu
      | some e =>
        rw [he] at hl
        cases d with
        | record inner =>
          cases e with
          | record sub => rfl
          | _ => cases hl
        | _ => cases hu
  · -- The key of a setting: the upper tree decides, and below it the lower.
    have hkey : e.1 ∈ schemaKeys := List.mem_map_of_mem he
    rw [follow_overlayEntries htidy (hupper.settles hkey) (hlower.settles hkey)]
    have hu := hupper.values e he
    cases hd : follow (keyNames e.1) upper with
    | none => exact hlower.values e he
    | some d =>
      rw [hd] at hu
      rwa [Option.some_or]

/-- A tree that holds nothing is well typed. -/
theorem wellTyped_nil : WellTyped [] where
  tables _ _ := rfl
  values e _ := by rw [follow_nil, Option.all_none]

/-! ## Keys of well-typed trees

The keys that a tree lists are those of its leaves, and the path of a leaf neither goes on from
that of a setting nor ends on the way to it. -/

/-- A path that leads to a leaf is the path of a setting or apart from it. The induction is on
the path of the setting. At its last name there is no table, so no path goes on from there;
before that there are tables, so no path ends there. -/
theorem Settles.eq_or_apart {path other : List String} (h : Settles path es) (hne : path ≠ [])
    (hother : follow other es = some d) (hd : ∀ sub, d ≠ .record sub) :
    other = path ∨ Apart path other := by
  induction path generalizing other es with
  | nil => exact absurd rfl hne
  | cons name path ih =>
    cases other with
    | nil => cases hother
    | cons first other =>
      by_cases hname : name = first
      · subst hname
        by_cases hpath : path = []
        · subst hpath
          by_cases hempty : other = []
          · exact .inl (by rw [hempty])
          · -- there would be a table where the setting is
            rw [follow_cons hempty, tableAt] at hother
            split at hother
            · exact absurd ‹_› (h.2 _)
            · rw [follow_nil] at hother
              cases hother
        · obtain ⟨hmore, htable⟩ := h.of_tableAt hpath
          by_cases hempty : other = []
          · subst hempty
            obtain ⟨sub, rfl⟩ := htable d hother
            exact absurd rfl (hd sub)
          · rw [follow_cons hempty] at hother
            exact (ih hmore hpath hother).imp (congrArg (name :: ·)) fun hapart => by
              simpa [Apart, List.cons_prefix_cons] using hapart
      · exact .inr ⟨fun hprefix => hname (List.cons_prefix_cons.1 hprefix).1,
          fun hprefix => hname (List.cons_prefix_cons.1 hprefix).1.symm⟩

/-- **A key that a tidy tree lists is the key of the setting or apart from it.** -/
theorem WellTyped.eq_or_apart (h : WellTyped es) (htidy : Tidy es)
    (hkey : key ∈ schemaKeys) {other : String}
    (hother : other ∈ keys es) : other = key ∨ Apart (keyNames key) (keyNames other) := by
  obtain ⟨d, hleads⟩ := htidy.exists_leadsTo hother
  refine ((h.settles hkey).eq_or_apart
    (keyNames_ne_nil key) hleads.follow_eq hleads.leaf.not_record).imp_left
    fun hnames => ?_
  rw [← hleads.key_eq, hnames, (schemaKeys_apart key hkey).2.1]

/-- A setting that leads to a leaf is listed. -/
theorem mem_keys_of_schema (hkey : key ∈ schemaKeys) (hd : ∀ sub, d ≠ .record sub)
    (h : follow (keyNames key) es = some d) : key ∈ keys es := by
  obtain ⟨path, name, hnames⟩ :=
    (List.eq_nil_or_concat' (keyNames key)).resolve_left (keyNames_ne_nil key)
  rw [hnames] at h
  have hmem := mem_keys_of_follow hd h
  rwa [← hnames, (schemaKeys_apart key hkey).2.1] at hmem

/-- **A tidy tree lists the keys of the settings that it holds.** -/
theorem WellTyped.mem_keys (h : WellTyped es) (htidy : Tidy es) (hkey : key ∈ schemaKeys) :
    key ∈ keys es ↔ (follow (keyNames key) es).isSome := by
  constructor
  · intro hmem
    obtain ⟨d, hleads⟩ := htidy.exists_leadsTo hmem
    rw [hleads.follow_eq, Option.isSome_some]
  · intro hsome
    obtain ⟨d, hd⟩ := Option.isSome_iff_exists.1 hsome
    exact mem_keys_of_schema hkey
      (fun sub heq => (h.settles hkey).2 sub (hd.trans (congrArg some heq))) hd

/-! ## Effective values

The value of a setting is looked for in the environment, in the files and among the built-in
settings. A variable that is named like a table hides what the last two hold in it. -/

/-- Whether the variable of a table that a key is in is set. -/
def shadowed (env : Environment) (key : String) : Bool :=
  (tablePaths (keyNames key)).any fun p => (env.value? (variableName (keyOf p))).isSome

/-- The value of a key is its variable, what the files hold, or what is built in. This is how
the search is done, for any key in lower case. -/
theorem value?_of_lower (hkey : Text.lowerString key = key) : value? env files key =
    (env.value? (variableName key)).elim
      (if shadowed env key then none
        else (search (keyNames key).length (.record files) (keyNames key)).or
          (if blocks (keyNames key) files then none else follow (keyNames key) builtIn))
      fun v => some (.string v) := by
  rw [value?, hkey]
  cases env.value? (variableName key) with
  | some v => rfl
  | none =>
    dsimp only [Option.elim_none]
    rw [shadowed]
    split
    · rfl
    · cases search (keyNames key).length (.record files) (keyNames key) <;> rfl

/-- **The value of a setting is its variable, what the files hold, or what is built in.** The
variable of the table that it is in hides the last two. In a well-typed tree a search finds what
the path leads to, and nothing blocks it. -/
theorem WellTyped.value?_eq (h : WellTyped files) (htidy : Tidy files) (hkey : key ∈ schemaKeys)
    (env : Environment) : value? env files key =
      (env.value? (variableName key)).elim
        (if shadowed env key then none
          else (follow (keyNames key) files).or (follow (keyNames key) builtIn))
        fun v => some (.string v) := by
  have hopen := (h.settles hkey).1
  rw [value?_of_lower (schemaKeys_apart key hkey).1, search_eq_follow htidy hopen, hopen]
  rfl

/-- The built-in settings are a tidy tree. -/
theorem tidy_builtIn : Tidy builtIn :=
  (Config.tidy_tableSettings .default).append (Config.tidy_requires "")
    (by simp [Config.tableSettings])

/-- What a path leads to in a tidy tree is a leaf, unless it is a table. -/
theorem Tidy.leaf_of_follow {path : List String} (h : Tidy es)
    (hfollow : follow path es = some d)
    (hd : ∀ sub, d ≠ .record sub) : IsLeaf d := by
  induction path generalizing es with
  | nil => cases hfollow
  | cons name path ih =>
    by_cases hpath : path = []
    · subst hpath
      rcases h.entry hfollow with hleaf | ⟨sub, rfl, -⟩
      · exact hleaf
      · exact absurd rfl (hd sub)
    · rw [follow_cons hpath] at hfollow
      exact ih (h.tableAt name) hfollow

/-- The value of a setting is a leaf. -/
theorem WellTyped.leaf_of_value? (h : WellTyped files) (htidy : Tidy files)
    (hkey : key ∈ schemaKeys)
    (hd : value? env files key = some d) : IsLeaf d := by
  have hleaf : ∀ {es : Settings}, WellTyped es → Tidy es →
      follow (keyNames key) es = some d → IsLeaf d :=
    fun hes htidy hfollow => htidy.leaf_of_follow hfollow fun sub heq =>
      (hes.settles hkey).2 sub (hfollow.trans (congrArg some heq))
  rw [h.value?_eq htidy hkey] at hd
  cases henv : env.value? (variableName key) with
  | some v =>
    rw [henv] at hd
    exact Option.some.inj hd ▸ isLeaf_text _
  | none =>
    rw [henv, Option.elim_none] at hd
    split at hd
    · cases hd
    · exact (Option.or_eq_some_iff.1 hd).elim (hleaf h htidy)
        fun hbuiltIn => hleaf wellTyped_builtIn tidy_builtIn hbuiltIn.2

/-- The value of a key that the files mention is a leaf. -/
theorem LeadsTo.leaf_of_value? {e : Data} (h : LeadsTo files key e) (htidy : Tidy files)
    (hd : value? env files key = some d) : IsLeaf d := by
  rw [value?_of_lower h.lower, search_of_follow htidy h.follow_eq] at hd
  cases henv : env.value? (variableName key) with
  | some v =>
    rw [henv] at hd
    exact Option.some.inj hd ▸ isLeaf_text _
  | none =>
    rw [henv, Option.elim_none, Option.some_or] at hd
    split at hd
    · cases hd
    · exact Option.some.inj hd ▸ h.leaf

/-- The keys with a value are those that the files mention, and settings. -/
theorem mem_keys_or_mem_schemaKeys (h : key ∈ allKeys files) :
    key ∈ keys files ∨ key ∈ schemaKeys := by
  rw [allKeys_eq, List.mem_append, leftKeys, List.mem_filter] at h
  exact h.imp_right fun hkey => schemaKeys_eq ▸ hkey.1

/-- **Every setting is among the keys with a value.** -/
theorem WellTyped.mem_allKeys (h : WellTyped files) (htidy : Tidy files)
    (hkey : key ∈ schemaKeys) :
    key ∈ allKeys files := by
  rw [allKeys_eq, List.mem_append, leftKeys, List.mem_filter]
  by_cases hown : key ∈ keys files
  · exact .inl hown
  · refine .inr ⟨schemaKeys_eq ▸ hkey, ?_⟩
    rw [Bool.and_eq_true, Bool.not_eq_true', Bool.not_eq_true', List.any_eq_false]
    refine ⟨by simpa using hown, fun p hp hcontains => ?_⟩
    -- the files would hold a value in place of a table
    rcases h.eq_or_apart htidy hkey (List.contains_iff_mem.1 hcontains) with heq | hapart
    · exact hown (heq ▸ List.contains_iff_mem.1 hcontains)
    · exact schemaKeys_in key hkey p hp hapart

/-! ## Effective settings

They are put together from the keys with a value, and so the tree of them is tidy and holds
under each key what its value is. -/

/-- The keys of a tidy tree are in lower case. -/
theorem isLower_of_mem_keys (h : Tidy es) (hkey : key ∈ keys es) : IsLower key := by
  obtain ⟨e, he, rfl⟩ := List.mem_map.1 hkey
  exact (leaf_of_mem_leavesIn es h.loweredEntries isLower_empty he).1

/-- **The effective settings make a tidy tree.** -/
theorem WellTyped.tidy_effective (h : WellTyped files) (htidy : Tidy files) (env : Environment) :
    Tidy (effective env files) := by
  refine tidy_ofLeaves fun e he => ?_
  obtain ⟨k, hk, hvalue⟩ := List.mem_filterMap.1 he
  obtain ⟨d, hd, rfl⟩ := Option.map_eq_some_iff.1 hvalue
  rcases mem_keys_or_mem_schemaKeys hk with hown | hkey
  · obtain ⟨e, hleads⟩ := htidy.exists_leadsTo hown
    exact ⟨isLower_of_mem_keys htidy hown, hleads.leaf_of_value? htidy hd⟩
  · exact ⟨isLower_of_mem_keys tidy_builtIn (schemaKeys_eq ▸ hkey),
      h.leaf_of_value? htidy hkey hd⟩

/-- The keys of the effective settings are those of settings, or apart from them. -/
theorem WellTyped.eq_or_apart_of_mem (h : WellTyped files) (htidy : Tidy files)
    (hkey : key ∈ schemaKeys)
    {other : String} (hother : other ∈ allKeys files) :
    other = key ∨ Apart (keyNames key) (keyNames other) :=
  (mem_keys_or_mem_schemaKeys hother).elim (h.eq_or_apart htidy hkey)
    ((schemaKeys_apart key hkey).2.2.2 other)

/-- **The effective settings hold the value of each setting.** -/
theorem WellTyped.follow_effective (h : WellTyped files) (htidy : Tidy files)
    (hkey : key ∈ schemaKeys)
    (env : Environment) : follow (keyNames key) (effective env files)
      = value? env files key := by
  refine follow_ofLeaves (keyNames_ne_nil key) (fun e he => ?_) ?_
  · obtain ⟨k, hk, hvalue⟩ := List.mem_filterMap.1 he
    obtain ⟨d, hd, rfl⟩ := Option.map_eq_some_iff.1 hvalue
    rcases h.eq_or_apart_of_mem htidy hkey hk with rfl | hapart
    · exact .inl ⟨rfl, hd⟩
    · exact .inr hapart
  · cases hd : value? env files key with
    | none => exact .inl rfl
    | some d =>
      exact .inr
        ⟨(key, d), List.mem_filterMap.2 ⟨key, h.mem_allKeys htidy hkey, by rw [hd]; rfl⟩, rfl⟩

theorem isTable_insert {path : List String} (hpath : path ≠ [name])
    (h : (es.lookup name).all isTable = true) :
    ((insert d path es).lookup name).all isTable = true := by
  cases path with
  | nil => exact h
  | cons first rest =>
    cases rest with
    | nil =>
      have hne : name ≠ first := fun heq => hpath (heq ▸ rfl)
      rwa [insert, lookup_set_of_ne es hne]
    | cons next rest =>
      rw [insert]
      by_cases hname : name = first
      · rw [hname, lookup_set_self]
        rfl
      · rwa [lookup_set_of_ne es hname]

theorem isTable_ofLeaves {l : List (String × Data)} (h : ∀ e ∈ l, keyNames e.1 ≠ [name]) :
    ((ofLeaves l).lookup name).all isTable = true := by
  have hfold : ∀ {es : Settings}, (es.lookup name).all isTable = true →
      ((l.foldl (fun es e => insert e.2 (keyNames e.1) es) es).lookup name).all isTable
      = true := by
    induction l with
    | nil => exact id
    | cons e l ih =>
      obtain ⟨hhead, hrest⟩ := List.forall_mem_cons.1 h
      exact fun hes => ih hrest (isTable_insert hhead hes)
  exact hfold rfl

/-- Where settings have a table, the effective settings have one or nothing. -/
theorem WellTyped.isTable_effective (h : WellTyped files) (htidy : Tidy files)
    (hname : name ∈ schemaTables)
    (env : Environment) : ((effective env files).lookup name).all isTable = true := by
  refine isTable_ofLeaves fun e he hnames => ?_
  obtain ⟨k, hk, hvalue⟩ := List.mem_filterMap.1 he
  obtain ⟨d, -, rfl⟩ := Option.map_eq_some_iff.1 hvalue
  rcases mem_keys_or_mem_schemaKeys hk with hown | hkey
  · obtain ⟨d, hleads⟩ := htidy.exists_leadsTo hown
    have htable := h.tables name hname
    have hlookup := hleads.follow_eq
    rw [show keyNames k = [name] from hnames, follow] at hlookup
    rw [hlookup] at htable
    cases d with
    | record sub => exact hleads.leaf.not_record sub rfl
    | _ => cases htable
  · exact absurd hnames (schemaKeys_ne_table k hkey name hname)

end Exemplar.Settings
