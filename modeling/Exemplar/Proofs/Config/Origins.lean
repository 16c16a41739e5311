import Exemplar.Proofs.Config.Decoding

/-!
# Where settings come from

The value of a setting and the source that is listed for it are worked out separately: the value
is looked up in the layers, laid over each other as trees, while the source is the last file
among whose keys the setting is. For files that fit the schema the two agree about each setting
that is a text (`TextSetting`): both come from its variable, else the project's file, else the
user's, else from what is built in (`TextSetting.stated`). Only the variable of the table that
it is in hides a setting: then it is not listed, and empty (`TextSetting.origin`).

That the two agree is shown file by file. A file that is added decides about the settings that
it holds, both as to the value and as to the source, and leaves the others as they were
(`Layers.Fits.ofFiles`). What makes this work is the schema: a file that fits it has no table
where another has a setting, so laying one over the other replaces settings and never a table by
a setting. Thereafter it is known which files there can be.

A variable is looked up before the files, so it decides about its own setting. That the variable
of a table has a say as well is because a search along a key looks at each name on the way.
-/

namespace Exemplar

open Exemplar.Settings

variable {d : Disk} {cwd key : String} {env : Environment} {es : Settings} {l l' : Layers}
variable {f : ConfigFile} {fs : List ConfigFile}

/-! ## Settings that are texts

Of all settings these are the ones whose values are texts, so that a variable, which is a text,
can give them as it is. -/

/-- A setting that is a text. -/
structure TextSetting where
  /-- Its key. -/
  key : String
  /-- The name of its variable. -/
  varName : String
  /-- The name of the variable of the table that it is in. -/
  tableVar : Option String
  /-- Its value in a configuration. -/
  value : Config → String

namespace TextSetting

/-- The settings that are texts. -/
def all : List TextSetting :=
  [⟨"generate.builder_name", "FIXTUREGEN_GENERATE_BUILDER_NAME", "FIXTUREGEN_GENERATE",
    (·.generate.builderName)⟩,
      ⟨"generate.factory", "FIXTUREGEN_GENERATE_FACTORY",
        "FIXTUREGEN_GENERATE", (·.generate.factory)⟩,
    ⟨"generate.header", "FIXTUREGEN_GENERATE_HEADER",
      "FIXTUREGEN_GENERATE", (·.generate.header)⟩,
    ⟨"generate.output_dir", "FIXTUREGEN_GENERATE_OUTPUT_DIR", "FIXTUREGEN_GENERATE",
      (·.generate.outputDir)⟩,
    ⟨"generate.suffix", "FIXTUREGEN_GENERATE_SUFFIX",
      "FIXTUREGEN_GENERATE", (·.generate.suffix)⟩,
    ⟨"requires", "FIXTUREGEN_REQUIRES", none, (·.requires)⟩]

/-- What a tree of settings says about a setting. -/
def said? (t : TextSetting) (es : Settings) : Option Text :=
  match follow (keyNames t.key) es with
  | some (.text s) => some s
  | _ => none

/-- What a configuration file says about a setting. -/
def saidIn (t : TextSetting) (d : Disk) (cwd : String) (f : ConfigFile) :
    Option (Text × ConfigFile) :=
  (ConfigFile.read d cwd f.path).toOption.bind fun es => (t.said? es).map (·, f)

/-- What the configuration file of an owner says about a setting, if there is such a file. -/
def saidBy (t : TextSetting) (d : Disk) (cwd : String) (env : Environment) (owner : Owner) :
    Option (Text × ConfigFile) :=
  ((ConfigFile.inUse d cwd env).find? (·.owner == owner)).bind (t.saidIn d cwd)

/-- What is stated for a setting and where: in its variable, in the project's file, in the
user's file, or among what is built in. -/
def stated (t : TextSetting) (d : Disk) (cwd : String) (env : Environment) : Text × Source :=
  match env.value? t.varName with
  | some v => (Text.ofString v, .environment t.varName)
  | none =>
    match (t.saidBy d cwd env .project).or (t.saidBy d cwd env .user) with
    | some (s, f) => (s, .file f)
    | none => (Text.ofString (t.value .default), .builtIn)

/-- Whether the variable of its table hides a setting, which has none of its own. -/
def hidden (t : TextSetting) (env : Environment) : Bool :=
  (env.value? t.varName).isNone && t.tableVar.any fun v => (env.value? v).isSome

/-- The value of a setting and where it comes from, unless it is hidden. -/
def origin (t : TextSetting) (d : Disk) (cwd : String) (env : Environment) :
    Option (Text × Source) :=
  if t.hidden env then none else some (t.stated d cwd env)

/-- The settings that are texts are in the schema. -/
theorem mem_schema {t : TextSetting} (ht : t ∈ all) : (t.key, isText) ∈ schema := by
  have hall : ∀ t ∈ all, (t.key, isText) ∈ schema := by
    simp [all, schema]
  exact hall t ht

/-- Each has its variable. -/
theorem variableName_key : ∀ t ∈ all, variableName t.key = t.varName := by
  decide +kernel

/-- And at most one table on the way to it. -/
theorem tablePaths_key : ∀ t ∈ all,
    (tablePaths (keyNames t.key)).map (fun p => variableName (keyOf p)) = t.tableVar.toList := by
  decide +kernel

/-- So it is hidden by the variable of that table, if by any. -/
theorem shadowed_key {t : TextSetting} (ht : t ∈ all) (env : Environment) :
    shadowed env t.key = t.tableVar.any fun v => (env.value? v).isSome := by
  have hany : shadowed env t.key
      = ((tablePaths (keyNames t.key)).map fun p => variableName (keyOf p)).any
      fun v => (env.value? v).isSome := by
    rw [List.any_map]
    rfl
  rw [hany, tablePaths_key t ht]
  cases t.tableVar <;> simp

/-- Each is built in. -/
theorem follow_builtIn {t : TextSetting} (ht : t ∈ all) :
    follow (keyNames t.key) builtIn = some (.string (t.value .default)) := by
  have hall : ∀ t ∈ all, follow (keyNames t.key) builtIn
      = some (.string (t.value .default)) := by
    simp only [all, List.forall_mem_cons]
    refine ⟨?_, ?_, ?_, ?_, ?_, ?_, List.forall_mem_nil _⟩
    all_goals rfl
  exact hall t ht

end TextSetting

/-! ## Layers of files

Files are added one after the other. Each stage of this fits the schema, and is described for
one key at a time. -/

/-- A configuration file can be read and fits the schema. -/
def ConfigFile.Fits (d : Disk) (cwd : String) (f : ConfigFile) : Prop :=
  ∃ es, ConfigFile.read d cwd f.path = .ok es ∧ es.WellTyped

/-- What a configuration file holds under a key. -/
def ConfigFile.holds? (d : Disk) (cwd key : String) (f : ConfigFile) :
    Option (Data × ConfigFile) :=
  (ConfigFile.read d cwd f.path).toOption.bind fun es => (follow (keyNames key) es).map (·, f)

/-- What is held under a key by the last of some configuration files that holds something
there. -/
def ConfigFile.lastHeld (d : Disk) (cwd key : String) (fs : List ConfigFile) :
    Option (Data × ConfigFile) :=
  fs.reverse.findSome? (ConfigFile.holds? d cwd key)

namespace Layers

/-- What the files say together fits the schema. -/
structure Fits (l : Layers) : Prop where
  tidy : Tidy l.files
  wellTyped : l.files.WellTyped

/-- Without any file there is nothing to fit. -/
theorem fits_empty : Fits empty := ⟨.nil, wellTyped_nil⟩

/-- One more file that fits makes no difference to that. -/
theorem Fits.add (h : l.Fits) (hes : es.WellTyped) (htidy : Tidy es) : (l.add f es).Fits :=
  ⟨htidy.overlay h.tidy, hes.overlay htidy h.wellTyped⟩

/-- **One more file decides about every setting that it holds.** -/
theorem Fits.follow_add (h : l.Fits) (hes : es.WellTyped) (htidy : Tidy es)
    (hkey : key ∈ schemaKeys) :
    follow (keyNames key) (l.add f es).files =
      (follow (keyNames key) es).or (follow (keyNames key) l.files) :=
  follow_overlayEntries htidy (hes.settles hkey) (h.wellTyped.settles hkey)

/-- A file is remembered for the names it was remembered for. -/
theorem lookup_map_file (names : List String) (f : ConfigFile) (key : String) :
    (names.map (·, f)).lookup key = if key ∈ names then some f else none := by
  induction names with
  | nil => rfl
  | cons name names ih =>
    rw [List.map_cons, List.lookup_cons, ih]
    by_cases hname : key = name
    · subst hname
      rw [beq_self_eq_true, if_pos List.mem_cons_self]
    · rw [beq_eq_false_iff_ne.2 hname]
      simp only [List.mem_cons, hname, false_or]

/-- **One more file is remembered for every setting that it holds.** -/
theorem lookup_mentioned_add (hes : es.WellTyped) (htidy : Tidy es) (hkey : key ∈ schemaKeys) :
    (l.add f es).mentioned.lookup key =
      ((follow (keyNames key) es).map fun _ => f).or (l.mentioned.lookup key) := by
  have hkeys := hes.mem_keys htidy hkey
  have hown : ((keys es).map (·, f)).lookup key = (follow (keyNames key) es).map fun _ => f := by
    rw [lookup_map_file]
    cases hfollow : follow (keyNames key) es with
    | some e => exact if_pos (hkeys.2 (by rw [hfollow]; rfl))
    | none =>
      rw [hfollow] at hkeys
      exact if_neg fun hmem => Bool.noConfusion (hkeys.1 hmem)
  rw [add, List.lookup_append, hown]

/-- **The files agree about what a setting is and about where it comes from**: both are what the
last file that holds it says. By induction on the files, the first of which is at the bottom. -/
theorem Fits.ofFiles (h : l.Fits) (hfs : ∀ f ∈ fs, f.Fits d cwd) :
    ∃ l', ofFiles d cwd l fs = .ok l' ∧ l'.Fits ∧ ∀ key ∈ schemaKeys,
      follow (keyNames key) l'.files =
        ((ConfigFile.lastHeld d cwd key fs).map (·.1)).or (follow (keyNames key) l.files) ∧
      l'.mentioned.lookup key =
        ((ConfigFile.lastHeld d cwd key fs).map (·.2)).or (l.mentioned.lookup key) := by
  induction fs generalizing l with
  | nil => exact ⟨l, rfl, h, fun key _ => ⟨rfl, rfl⟩⟩
  | cons f fs ih =>
    obtain ⟨⟨es, hread, hes⟩, hrest⟩ := List.forall_mem_cons.1 hfs
    have htidy := tidy_of_read hread
    obtain ⟨l', hl', hfits, hkeys⟩ := ih (h.add (f := f) hes htidy) hrest
    refine ⟨l', by rw [Layers.ofFiles, hread]; exact hl', hfits, fun key hkey => ?_⟩
    have hheld : ConfigFile.holds? d cwd key f = (follow (keyNames key) es).map (·, f) := by
      rw [ConfigFile.holds?, hread]
      rfl
    -- The last file with the setting is among the files behind this one, or else this one.
    have hlast : ConfigFile.lastHeld d cwd key (f :: fs) =
        (ConfigFile.lastHeld d cwd key fs).or ((follow (keyNames key) es).map (·, f)) := by
      rw [ConfigFile.lastHeld, List.reverse_cons, List.findSome?_append,
        List.findSome?_singleton, hheld]
      rfl
    obtain ⟨hvalue, hmentioned⟩ := hkeys key hkey
    rw [hvalue, hmentioned, hlast, h.follow_add hes htidy hkey,
      lookup_mentioned_add hes htidy hkey]
    cases ConfigFile.lastHeld d cwd key fs <;> cases follow
      (keyNames key) es <;> exact ⟨rfl, rfl⟩

end Layers

/-! ## The files in use

A path that leads nowhere is not in use, so each owner has a file or none. -/

/-- At most two files are in use, the user's before the project's. -/
theorem ConfigFile.inUse_eq (d : Disk) (cwd : String) (env : Environment) :
    ∃ user project : Option ConfigFile,
    (∀ f ∈ user, f.owner = .user) ∧ (∀ f ∈ project, f.owner = .project) ∧
      inUse d cwd env = user.toList ++ project.toList := by
  -- an owner's file is in use if its path is known and leads to something
  have hnamed : ∀ (owner : Owner) (path : String), ∃ named : Option ConfigFile,
      (∀ f ∈ named, f.owner = owner) ∧
        (if path.isEmpty then [] else [(⟨owner, path⟩ : ConfigFile)]).filter (d.holds cwd ·.path)
        = named.toList := by
    intro owner path
    by_cases hpath : path.isEmpty
    · exact ⟨none, nofun, by rw [if_pos hpath]; rfl⟩
    · by_cases hholds : d.holds cwd path
      · exact ⟨some ⟨owner, path⟩, fun f hf => Option.mem_some.1 hf ▸ rfl, by
          rw [if_neg hpath, List.filter_singleton, hholds]; rfl⟩
      · exact ⟨none, nofun, by
          rw [if_neg hpath, List.filter_singleton, Bool.eq_false_iff.2 hholds]; rfl⟩
  obtain ⟨user, huser, huserFile⟩ := hnamed .user (userPath env)
  obtain ⟨project, hproject, hprojectFile⟩ := hnamed .project (findProject d cwd cwd)
  refine ⟨user, project, huser, hproject, ?_⟩
  rw [← huserFile, ← hprojectFile, ← List.filter_append]
  rfl

namespace TextSetting

variable {t : TextSetting}

/-- What a file that fits the schema holds under the key of a setting is what it says about
it. -/
theorem holds?_eq (ht : t ∈ all) (hf : f.Fits d cwd) :
    f.holds? d cwd t.key = (t.saidIn d cwd f).map fun s => (.text s.1, s.2) := by
  obtain ⟨es, hread, hes⟩ := hf
  have htext := hes.values _ (mem_schema ht)
  have hsaid : (follow (keyNames t.key) es).map (·, f) =
      ((t.said? es).map (·, f)).map fun s => (Data.text s.1, s.2) := by
    rw [said?]
    cases hfollow : follow (keyNames t.key) es with
    | none => rfl
    | some e =>
      rw [hfollow] at htext
      cases e with
      | text s => rfl
      | _ => cases htext
  rw [ConfigFile.holds?, saidIn, hread]
  exact hsaid

/-- **The last file that holds a setting is the project's, or else the user's.** -/
theorem lastHeld_inUse (ht : t ∈ all) (hfs : ∀ f ∈ ConfigFile.inUse d cwd env, f.Fits d cwd) :
    ConfigFile.lastHeld d cwd t.key (ConfigFile.inUse d cwd env) =
      ((t.saidBy d cwd env .project).or (t.saidBy d cwd env .user)).map fun s =>
      (.text s.1, s.2) := by
  obtain ⟨user, project, huser, hproject, hinUse⟩ := ConfigFile.inUse_eq d cwd env
  rw [hinUse] at hfs
  have hproject' : (user.toList ++ project.toList).find? (·.owner == .project) = project := by
    cases user <;> cases project <;> simp_all
  have huser' : (user.toList ++ project.toList).find? (·.owner == .user) = user := by
    cases user <;> cases project <;> simp_all
  -- Whether there is one file, two or none, the last is the project's if that holds the
  -- setting.
  have hlast : ConfigFile.lastHeld d cwd t.key (user.toList ++ project.toList) =
      (project.bind (·.holds? d cwd t.key)).or (user.bind (·.holds? d cwd t.key)) := by
    rw [ConfigFile.lastHeld, List.reverse_append, List.findSome?_append]
    cases user <;> cases project <;> simp
  have hheld : ∀ {o : Option ConfigFile}, (∀ f ∈ o, f.Fits d cwd) →
      o.bind (·.holds? d cwd t.key) =
      (o.bind (t.saidIn d cwd)).map fun s => (.text s.1, s.2) := by
    rintro (_ | f) hf
    · rfl
    · exact holds?_eq ht (hf f rfl)
  rw [saidBy, saidBy, hinUse, hproject', huser', hlast, hheld fun f hf => hfs f (by simp_all),
    hheld fun f hf => hfs f (by simp_all)]
  cases project.bind (t.saidIn d cwd) <;> rfl

/-- Layers agree with the origins of the settings: about their values, and about the sources of
those that have one. -/
def AgreesIn (l : Layers) (d : Disk) (cwd : String) (env : Environment) : Prop :=
  ∀ t ∈ all, value? env l.files t.key = (t.origin d cwd env).map (fun o => .text o.1) ∧
    ∀ o ∈ t.origin d cwd env, l.sourceOf env t.key = o.2

/-- **Value and source have one origin.** -/
theorem exists_agreesIn (hfs : ∀ f ∈ ConfigFile.inUse d cwd env, f.Fits d cwd) :
    ∃ l, Layers.load d cwd env = .ok l ∧ l.Fits ∧ AgreesIn l d cwd env := by
  obtain ⟨l, hload, hfits, hkeys⟩ := Layers.fits_empty.ofFiles hfs
  refine ⟨l, hload, hfits, fun t ht => ?_⟩
  have hkey : t.key ∈ schemaKeys := List.mem_map_of_mem (mem_schema ht)
  obtain ⟨hvalue, hmentioned⟩ := hkeys t.key hkey
  rw [hfits.wellTyped.value?_eq hfits.tidy hkey, Layers.sourceOf,
    variableName_key t ht, origin, hidden, stated, shadowed_key ht]
  -- First the variable of the setting, then that of its table, then the files, then what is
  -- built in.
  cases env.value? t.varName with
  | some v => exact ⟨rfl, fun o ho => Option.mem_some.1 ho ▸ rfl⟩
  | none =>
    rw [Option.isNone_none, Bool.true_and]
    dsimp only [Option.elim_none]
    by_cases hhidden : (t.tableVar.any fun v => (env.value? v).isSome) = true
    · rw [if_pos hhidden, if_pos hhidden]
      exact ⟨rfl, nofun⟩
    · rw [if_neg hhidden, if_neg hhidden, hvalue, hmentioned,
        lastHeld_inUse ht hfs, follow_builtIn ht]
      cases (t.saidBy d cwd env .project).or (t.saidBy d cwd env .user) with
      | some s => exact ⟨rfl, fun o ho => Option.mem_some.1 ho ▸ rfl⟩
      | none =>
        refine ⟨?_, fun o ho => Option.mem_some.1 ho ▸ rfl⟩
        rw [Layers.empty, follow_nil]
        rfl

/-- The texts of a configuration are the values of its settings. -/
theorem value_eq_textOf {files : Settings} {c : Config} {t : TextSetting}
    (ht : t ∈ all) (h : files.WellTyped)
    (htidy : Tidy files) (hc : Config.decode? (.record (effective env files)) = some c) :
    t.value c = textOf env files t.key := by
  have hall : ∀ t ∈ all, t.value c = textOf env files t.key := by
    obtain ⟨hbuilder, hfactory, hheader, houtput, hsuffix, hrequires⟩ :=
      h.texts_of_decode? htidy hc
    simp only [all, List.forall_mem_cons]
    exact ⟨hbuilder, hfactory, hheader, houtput, hsuffix, hrequires, List.forall_mem_nil _⟩
  exact hall t ht

end TextSetting

/-! ## Lists of settings

A list has one line for each setting that is in force, with its value and its source. The lines
are ordered by keys, and keys do not repeat. -/

/-- **The settings are listed in the order of their keys.** -/
theorem Layers.pairwise_settings (l : Layers) (env : Environment) :
    (l.settings env).Pairwise fun a b => Data.nameLe a.key b.key = true := by
  have htrans : ∀ a b c : String, Data.nameLe a b = true → Data.nameLe b c = true →
      Data.nameLe a c = true :=
    fun a b c hab hbc =>
      decide_eq_true (List.le_trans (of_decide_eq_true hab) (of_decide_eq_true hbc))
  have htotal : ∀ a b : String, (Data.nameLe a b || Data.nameLe b a) = true := fun a b =>
    Bool.or_eq_true _ _ ▸ (List.le_total _ _).imp decide_eq_true decide_eq_true
  rw [settings, List.pairwise_map]
  exact List.pairwise_mergeSort htrans htotal _

/-- **A setting is listed once if it has a value**, and else not at all. -/
theorem Layers.Fits.filter_settings (h : l.Fits) (hkey : key ∈ schemaKeys) :
    (l.settings env).filter (·.key == key) =
      (value? env l.files key).toList.map (⟨key, ·, l.sourceOf env key⟩) := by
  have htidy := h.wellTyped.tidy_effective h.tidy env
  -- No key is listed twice, because the tree is tidy. So it has to be seen which are listed.
  have hnodup : (keys (effective env l.files)).Nodup := htidy.nodup_keysIn ""
  have hfollow := h.wellTyped.follow_effective h.tidy hkey env
  have hsame :
      ((·.key == key) ∘
        fun k => (⟨k, (value? env l.files k).getD .null, l.sourceOf env k⟩ : Setting)) =
      (· == key) := rfl
  rw [settings, List.filter_map, hsame, List.filter_beq,
    (List.mergeSort_perm _ _).count_eq, hnodup.count]
  cases he : value? env l.files key with
  | some e =>
    rw [he] at hfollow
    rw [if_pos
      (mem_keys_of_schema hkey (h.wellTyped.leaf_of_value? h.tidy hkey he).not_record hfollow),
      List.replicate_one, List.map_singleton, he]
    rfl
  | none =>
    rw [he] at hfollow
    have hnot : key ∉ keys (effective env l.files) := fun hmem => by
      obtain ⟨e, hleads⟩ := htidy.exists_leadsTo hmem
      rw [hleads.follow_eq] at hfollow
      cases hfollow
    rw [if_neg hnot]
    rfl

/-- A configuration is loaded exactly if the effective settings of its layers fit. -/
theorem Config.load_eq_ok_iff (hload : Layers.load d cwd env = .ok l) :
    Config.load d cwd env = .ok c ↔
    Config.decode? (.record (effective env l.files)) = some c := by
  rw [Config.load, hload]
  simp only [bind, Except.bind, Layers.config]
  cases Config.decode? (.record (effective env l.files)) <;> simp

/-- **The listed source of a setting is where its value comes from.** Let every configuration
file in use fit the schema. Then the layers are loaded, their settings are listed in the order
of their keys, and the configuration is loaded exactly if the variables of the settings that are
no texts can be read. Each setting that is a text is listed once, with the value and the source
of its origin, and that is its value in the configuration; if it is hidden, it is not listed and
empty.

The layers exist because the files fit, and they agree with the origins. What is listed is what
is looked up in them, and the configuration has the same values. -/
theorem settings_eq_origin (hfs : ∀ f ∈ ConfigFile.inUse d cwd env, f.Fits d cwd) :
    ∃ l, Layers.load d cwd env = .ok l ∧
      ((l.settings env).Pairwise fun a b => Data.nameLe a.key b.key = true) ∧
      ((∃ c, Config.load d cwd env = .ok c) ↔ env.Readable) ∧
      ∀ t ∈ TextSetting.all,
        (l.settings env).filter (·.key == t.key) =
          (t.origin d cwd env).toList.map (fun o => ⟨t.key, .text o.1, o.2⟩) ∧
        ∀ c, Config.load d cwd env = .ok c →
        t.value c = (t.origin d cwd env).elim "" (·.1.toString) := by
  obtain ⟨l, hload, hfits, hagree⟩ := TextSetting.exists_agreesIn hfs
  refine ⟨l, hload, l.pairwise_settings env, ?_, fun t ht => ?_⟩
  · rw [← hfits.wellTyped.isSome_decode? hfits.tidy, Option.isSome_iff_exists]
    exact exists_congr fun _ => Config.load_eq_ok_iff hload
  · obtain ⟨hvalue, hsource⟩ := hagree t ht
    refine ⟨?_, fun c hc => ?_⟩
    · rw [hfits.filter_settings (List.mem_map_of_mem (TextSetting.mem_schema ht)), hvalue]
      cases horigin : t.origin d cwd env with
      | none => rfl
      | some o => rw [hsource o horigin]; rfl
    · rw [TextSetting.value_eq_textOf ht hfits.wellTyped hfits.tidy
        ((Config.load_eq_ok_iff hload).1 hc), textOf, valueAs, hvalue]
      cases t.origin d cwd env <;> rfl

/-! ## A working directory with two files -/

instance (d : Disk) (cwd : String) (f : ConfigFile) : Decidable (f.Fits d cwd) :=
  match h : ConfigFile.read d cwd f.path with
  | .ok es => decidable_of_iff es.WellTyped ⟨fun hes => ⟨es, h, hes⟩, fun ⟨es', hread, hes⟩ => by
      rw [h] at hread
      cases hread
      exact hes⟩
  | .error _ => isFalse fun ⟨es, hread, _⟩ => by
      rw [h] at hread
      cases hread

/-- A project's file and a user's, which overlap. -/
def office : Disk :=
  ⟨[(["w"], .directory), (["h"], .directory), ([".fixturegen", "h"], .directory),
    (["fixturegen.toml", "w"],
      .file (Text.ofString "[generate]\nfactory = 'literal'\nSuffix = '.p'\n")),
    (["config.toml", ".fixturegen", "h"],
      .file (Text.ofString "requires = '1'\ngenerate.suffix = '.u'\n"))]⟩

/-- A home directory, and the variables of two settings. -/
def officeEnv : Environment :=
  [("HOME", "/h"), ("FIXTUREGEN_GENERATE_HEADER", "//"),
    ("FIXTUREGEN_GENERATE_PARALLELISM", "4")]

/-- Each of the sources counts for one setting or another. -/
theorem origins_office :
    (∀ f ∈ ConfigFile.inUse office "/w" officeEnv, f.Fits office "/w") ∧
      ∃ l c, Layers.load office "/w" officeEnv = .ok l ∧
      Config.load office "/w" officeEnv = .ok c ∧
        TextSetting.all.map (·.value c) = ["someBuilder", "literal", "//", "", ".p", "1"] ∧
        TextSetting.all.map
        (fun t => ((l.settings officeEnv).filter (·.key == t.key)).map (·.source)) =
          [[.builtIn], [.file ⟨.project, "/w/fixturegen.toml"⟩],
            [.environment "FIXTUREGEN_GENERATE_HEADER"], [.builtIn],
            [.file ⟨.project, "/w/fixturegen.toml"⟩],
            [.file ⟨.user, "/h/.fixturegen/config.toml"⟩]] := by
  -- both files are read once for all that is asked of them
  obtain ⟨hfs, horigins⟩ : (∀ f ∈ ConfigFile.inUse office "/w" officeEnv, f.Fits office "/w") ∧
      TextSetting.all.map (·.origin office "/w" officeEnv) =
        [some (Text.ofString "someBuilder", .builtIn),
          some (Text.ofString "literal", .file ⟨.project, "/w/fixturegen.toml"⟩),
          some (Text.ofString "//", .environment "FIXTUREGEN_GENERATE_HEADER"),
          some ([], .builtIn), some (Text.ofString ".p", .file ⟨.project, "/w/fixturegen.toml"⟩),
          some (Text.ofString "1", .file ⟨.user, "/h/.fixturegen/config.toml"⟩)] := by
    decide +kernel
  obtain ⟨l, hload, -, hreadable, hall⟩ := settings_eq_origin hfs
  obtain ⟨c, hc⟩ := hreadable.2
    { parallelism := by decide +kernel
      json := by decide +kernel
      enums := by decide +kernel }
  refine ⟨hfs, l, c, hload, hc, ?_, ?_⟩
  · have hvalues := congrArg (List.map (Option.elim · "" (·.1.toString))) horigins
    rw [List.map_map] at hvalues
    rw [List.map_congr_left fun t ht => (hall t ht).2 c hc]
    exact hvalues.trans (by decide +kernel)
  · have hsources := congrArg (List.map fun o => o.toList.map (·.2)) horigins
    rw [List.map_map] at hsources
    rw [List.map_congr_left fun t ht => congrArg (List.map (·.source)) (hall t ht).1]
    simp only [List.map_map]
    exact hsources

/-- The variable of the table that the settings for builders are in. -/
def hidingEnv : Environment := [("FIXTUREGEN_GENERATE", "x")]

/-- **The variable of a table hides its settings**: they are not listed, and are empty in the
configuration instead of what is stated for them. -/
theorem settings_hidden :
    (∀ f ∈ ConfigFile.inUse Config.workplace "/w" hidingEnv, f.Fits Config.workplace "/w") ∧
      ∃ l c, Layers.load Config.workplace "/w" hidingEnv = .ok l ∧
        Config.load Config.workplace "/w" hidingEnv = .ok c ∧
        ∃ t ∈ TextSetting.all, (l.settings hidingEnv).filter (·.key == t.key) = [] ∧
          t.value c ≠ (t.stated Config.workplace "/w" hidingEnv).1.toString := by
  have hreadable : hidingEnv.Readable :=
    ⟨by decide +kernel, by decide +kernel, by decide +kernel⟩
  obtain ⟨c, hc⟩ :=
    Option.isSome_iff_exists.1 ((wellTyped_nil.isSome_decode? .nil hidingEnv).2 hreadable)
  have hfiles : ConfigFile.inUse Config.workplace "/w" hidingEnv = [] := by decide +kernel
  have hlayers : Layers.load Config.workplace "/w" hidingEnv = .ok .empty := by
    rw [Layers.load, hfiles, Layers.ofFiles]
  have hload : Config.load Config.workplace "/w" hidingEnv = .ok c :=
    (Config.load_eq_ok_iff hlayers).2 hc
  -- The variable holds what is no table, so nothing is found in it.
  have hnone : value? hidingEnv [] "generate.builder_name" = none :=
    Option.isNone_iff_eq_none.1 (by decide +kernel)
  refine ⟨by rw [hfiles]; exact List.forall_mem_nil _, .empty, c, hlayers, hload, _,
    List.mem_cons_self, ?_, ?_⟩
  · refine (Layers.fits_empty.filter_settings
      (List.mem_map_of_mem (TextSetting.mem_schema List.mem_cons_self))).trans ?_
    rw [show value? hidingEnv Layers.empty.files _ = none from hnone]
    rfl
  · rw [TextSetting.value_eq_textOf List.mem_cons_self wellTyped_nil .nil hc, textOf,
      valueAs, hnone]
    decide +kernel

end Exemplar
