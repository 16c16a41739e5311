import Exemplar.Config.Load
import Exemplar.Proofs.Config.Backups
import Exemplar.Proofs.Config.Settings
import Exemplar.Proofs.Toml.Tables

/-!
# Saved configurations are loaded as they were

A configuration is written as a document, in which a requirement comes first and is left out if
there is none. What the document says are its settings (`Config.settings`); laid over what is
built in they are in force as they are, with an empty requirement where none is mentioned, and
they are taken as the configuration they were written for. Only a list nobody mentioned has
become an empty one (`Config.listed`).

Three theorems about documents and settings are put together. The document that is written for
data with tables is read back as these data (`read?_encode`). A tree of settings in which every
name stands for itself has its leaves in force as they are (`effective_settings`), and those are
taken field by field. The only thing to be seen on the way is that what is built in adds nothing
to a document that mentions everything, but for the requirement.

At the level of files the question is which of them is read: the one that was saved, because it
is the project file of the directory or the one that was asked for.
-/

namespace Exemplar

open Exemplar.Disk Exemplar.Settings Exemplar.Toml

variable {c : Config} {d d' : Disk} {cwd path name : String} {es : Settings}

/-! ## Configurations as settings

A table of settings has an entry for each field, in the order in which fields are written.
Requirements are written in front of tables, because what stands behind the head of a table
belongs to it. -/

/-- The entries the settings for builders are written with. -/
def GenerateConfig.entries (g : GenerateConfig) : Settings :=
  [("builder_name", .string g.builderName), ("factory", .string g.factory),
    ("header", .string g.header), ("output_dir", .string g.outputDir),
    ("suffix", .string g.suffix), ("parallelism", .int g.parallelism)]

/-- The entries an enumeration is written with. -/
def EnumConfig.entries (e : EnumConfig) : Settings :=
  [("name", .string e.name), ("values", Data.strings (e.values.getD []))]

/-- The entries the names to resolve types with are written with. -/
def TypesConfig.entries (t : TypesConfig) : Settings :=
  [("elementary", Data.strings (t.elementary.getD [])),
    ("enums", .list (((t.enums.getD []).map EnumConfig.entries).map .record))]

/-- The entries the settings for the log are written with. -/
def LogConfig.entries (l : LogConfig) : Settings := [("json", .bool l.json)]

/-- The enumeration with an empty list of values if nobody mentioned them. -/
def EnumConfig.listed (e : EnumConfig) : EnumConfig :=
  { e with values := some (e.values.getD []) }

/-- The names with an empty list in place of every one that nobody mentioned. -/
def TypesConfig.listed (t : TypesConfig) : TypesConfig :=
  { elementary := some (t.elementary.getD []),
    enums := some ((t.enums.getD []).map EnumConfig.listed) }

namespace Config

/-- The configuration with an empty list in place of every one that nobody mentioned. -/
def listed (c : Config) : Config := { c with types := c.types.listed }

/-- The tables a configuration is written with. -/
def tableSettings (c : Config) : Settings :=
  [("generate", .record c.generate.entries), ("types", .record c.types.entries),
    ("log", .record c.log.entries)]

/-- The requirement a configuration is written with, if there is one. -/
def requirement (c : Config) : Settings :=
  if c.requires.isEmpty then [] else [("requires", .string c.requires)]

/-- The settings a configuration is written with, in the order they are written in. -/
def settings (c : Config) : Settings := c.requirement ++ c.tableSettings

/-- As data, a configuration has its requirement behind the tables. -/
theorem toData_unset (c : Config) :
    c.toData Format.toml.unset = .record (c.tableSettings ++ c.requirement) := by
  have hlist : ∀ l : Option (List String),
      (l.map Data.strings).getD Format.toml.unset = Data.strings (l.getD []) := fun l => by
    cases l <;> rfl
  have henum : EnumConfig.toData Format.toml.unset = Data.record ∘ EnumConfig.entries :=
    funext fun e => by
      rw [EnumConfig.toData, hlist]
      rfl
  have henums :
      (c.types.enums.map fun l => Data.list (l.map (EnumConfig.toData Format.toml.unset))).getD
      Format.toml.unset
          = .list (((c.types.enums.getD []).map EnumConfig.entries).map .record) := by
    rw [henum, List.map_map]
    cases c.types.enums <;> rfl
  rw [toData, hlist, henums]
  rfl

/-! ## What a document says

Each table is read as it was written. Its values are numbers in range, truth values, texts and
lists of texts, and for the enumerations tables again. -/

/-- The settings for builders are read back, if the number of units at a time is in range. -/
theorem readsTable_generate {g : GenerateConfig} (hn : Fits g.parallelism) :
    ReadsTable "generate" (.record g.entries) := by
  refine readsTable_of_plain (by decide) ?_ (by simp [GenerateConfig.entries])
  exact .cons (by decide) (.string _)
    (.cons (by decide) (.string _) (.cons (by decide) (.string _)
    (.cons (by decide) (.string _)
      (.cons (by decide) (.string _) (.cons (by decide) (.int hn) .nil)))))

/-- An enumeration has plain values. -/
theorem plainEntries_enum (e : EnumConfig) : PlainEntries e.entries :=
  .cons (by decide) (.string _) (.cons (by decide) (.strings _) .nil)

/-- The enumerations are written as tables, and as an empty list if there are none. -/
theorem readsTable_types (t : TypesConfig) : ReadsTable "types" (.record t.entries) := by
  rw [TypesConfig.entries]
  by_cases hne : t.enums.getD [] = []
  · rw [hne]
    exact readsTable_of_plain (by decide)
      (.cons (by decide) (.strings _) (.cons (by decide) (.strings []) .nil)) (by simp)
  · refine readsTable_of_tables (by decide) (by decide) (.cons (by decide) (.strings _) .nil) ?_
      (by simpa using hne) (by simp) (by simp) ?_
    · exact List.forall_mem_map.2 fun e _ => plainEntries_enum e
    · exact List.forall_mem_map.2 fun e _ => by simp [EnumConfig.entries]

/-- The settings for the log are read back. -/
theorem readsTable_log (l : LogConfig) : ReadsTable "log" (.record l.entries) :=
  readsTable_of_plain (by decide) (.cons (by decide) (.bool _) .nil)
    (by simp [LogConfig.entries])

/-- And so is a requirement, if there is one. -/
theorem plainEntries_requirement (c : Config) : PlainEntries c.requirement := by
  rw [requirement]
  split
  · exact .nil
  · exact .cons (by decide) (.string _) .nil

/-- **A document says the settings it was written for.** -/
theorem read?_encode (hn : Fits c.generate.parallelism) :
    Toml.read? strict (Text.ofString (c.encode .toml)) = some (.record c.settings) := by
  have htables : ∀ t ∈ c.tableSettings, ReadsTable t.1 t.2 :=
    List.forall_mem_cons.2 ⟨readsTable_generate hn, List.forall_mem_cons.2 ⟨readsTable_types _,
      List.forall_mem_singleton.2 (readsTable_log _)⟩⟩
  have hnames : (c.requirement.map (·.1) ++ c.tableSettings.map (·.1)).Nodup := by
    rw [requirement, tableSettings]
    split <;> simp
  rw [encode, toData_unset]
  exact read?_write (plainEntries_requirement c) htables hnames

/-! ## Which settings are in force

No name of a field has a dot or a capital in it, and none comes twice. So each setting is in
force under its key. -/

/-- Names of fields stand for themselves, here and in the other tables. -/
theorem tidy_generate (g : GenerateConfig) : Tidy g.entries :=
  .leaf (by decide) (by simp) (isLeaf_text _) (.leaf (by decide) (by simp) (isLeaf_text _)
    (.leaf (by decide) (by simp) (isLeaf_text _) (.leaf (by decide) (by simp) (isLeaf_text _)
      (.leaf (by decide) (by simp) (isLeaf_text _)
        (.leaf (by decide) (by simp) (isLeaf_int _) .nil)))))

/-- For an enumeration. -/
theorem tidy_enum (e : EnumConfig) : Tidy e.entries :=
  .leaf (by decide) (by simp) (isLeaf_text _)
    (.leaf (by decide) (by simp) (isLeaf_strings _) .nil)

/-- For the names to resolve types with. -/
theorem tidy_types (t : TypesConfig) : Tidy t.entries := by
  have henums : IsLeaf (.list (((t.enums.getD []).map EnumConfig.entries).map .record)) :=
    isLeaf_list (List.forall_mem_map.2 (List.forall_mem_map.2 fun e _ => by
      rw [lowered, (tidy_enum e).loweredEntries]))
  exact .leaf (by decide) (by simp) (isLeaf_strings _) (.leaf (by decide) (by simp) henums .nil)

/-- For all tables. -/
theorem tidy_tableSettings (c : Config) : Tidy c.tableSettings :=
  .table (by decide) (by simp) (List.cons_ne_nil _ _) (tidy_generate _)
    (.table (by decide) (by simp) (List.cons_ne_nil _ _) (tidy_types _)
      (.table (by decide) (by simp) (List.cons_ne_nil _ _)
        (.leaf (by decide) (by simp) (isLeaf_bool _) .nil) .nil))

/-- For the requirement. -/
theorem tidy_requires (s : String) : Tidy [("requires", .string s)] :=
  .leaf (by decide) (by simp) (isLeaf_text _) .nil

/-- For a whole configuration. -/
theorem tidy_settings (c : Config) : Tidy c.settings := by
  rw [settings, requirement]
  split
  · exact tidy_tableSettings c
  · exact (tidy_requires _).append (tidy_tableSettings c) (by simp [tableSettings])

/-- The keys of the settings in tables. -/
def tableKeys : List String :=
  ["generate.builder_name", "generate.factory", "generate.header", "generate.output_dir",
    "generate.suffix", "generate.parallelism", "types.elementary", "types.enums", "log.json"]

/-- Every configuration has the same keys. -/
theorem keys_tableSettings (c : Config) : keys c.tableSettings = tableKeys := rfl

/-- The requirement that is built in, if a document mentions none. -/
def unmentioned (c : Config) : Settings :=
  if c.requires.isEmpty then [("requires", .string "")] else []

/-- **The settings of a document are in force as they are**, with an empty requirement where
none is mentioned. -/
theorem effective_settings (c : Config) :
    effective [] c.settings = c.settings ++ c.unmentioned := by
  by_cases hrequires : c.requires.isEmpty
  · have hsettings : c.settings = c.tableSettings := by
      rw [settings, requirement, if_pos hrequires, List.nil_append]
    have hunmentioned : c.unmentioned = [("requires", .string "")] := if_pos hrequires
    have hfresh : "requires" ∉ c.tableSettings.map (·.1) := by simp [tableSettings]
    rw [hsettings, hunmentioned]
    refine effective_nil (tidy_tableSettings c) ?_ ?_ ?_
    · exact (tidy_tableSettings c).append (tidy_requires "") (by simp [tableSettings])
    · rw [keys_tableSettings]
      exact (by decide +kernel : leftKeys tableKeys = ["requires"])
    · exact List.forall_mem_singleton.2 (value?_of_notMem (by decide) hfresh)
  · have hunmentioned : c.unmentioned = [] := if_neg hrequires
    rw [hunmentioned]
    refine effective_nil (tidy_settings c) ?_ ?_ (List.forall_mem_nil _)
    · rw [List.append_nil]
      exact tidy_settings c
    · rw [settings, keys_append, keys_tableSettings, requirement, if_neg hrequires]
      exact (by decide +kernel : leftKeys ("requires" :: tableKeys) = [])

/-! ## What settings are taken as -/

theorem entryOr_of_lookup {α : Type} {as? : Data → Option α} {unset : α} {e : Data}
    (h : es.lookup name = some e) : entryOr as? unset es name = as? e := by
  rw [entryOr, h]

theorem asText?_string (s : String) : asText? (.string s) = some s :=
  congrArg some (toString_ofString s)

theorem entryOr_string {s : String} (h : es.lookup name = some (.string s)) :
    entryOr asText? "" es name = some s :=
  (entryOr_of_lookup h).trans (asText?_string s)

theorem mapM_map_eq_some {α β γ : Type} {f : α → β} {g : β → Option γ} {k : α → γ}
    (h : ∀ a, g (f a) = some (k a)) (l : List α) : (l.map f).mapM g = some (l.map k) := by
  rw [List.mapM_map, show g ∘ f = fun a => some (k a) from funext h]
  exact List.mapM_pure

/-- A list is taken as one that was mentioned. -/
theorem entryOr_list {α β : Type} {f : α → Data} {item? : Data → Option β}
    {k : α → β} {l : List α}
    (hitem : ∀ a, item? (f a) = some (k a)) (h : es.lookup name = some (.list (l.map f))) :
    entryOr (fun d => (asList? item? d).map some) none es name = some (some (l.map k)) := by
  rw [entryOr_of_lookup h, asList?, mapM_map_eq_some hitem]
  rfl

theorem entryOr_strings {l : List String} (h : es.lookup name = some (Data.strings l)) :
    entryOr (fun d => (asList? asText? d).map some) none es name = some (some l) := by
  rw [entryOr_list asText?_string h, List.map_id']

theorem asEnum?_entries (e : EnumConfig) : asEnum? (.record e.entries) = some e.listed := by
  have hname : entryOr asText? "" e.entries "name" = some e.name := entryOr_string rfl
  have hvalues : entryOr (fun d => (asList? asText? d).map some) none e.entries "values" =
      some (some (e.values.getD [])) := entryOr_strings rfl
  simp only [asEnum?, asRecord?, Option.bind_eq_bind, Option.bind_some, hname, hvalues]
  rfl

theorem asGenerate?_entries (g : GenerateConfig) : asGenerate? (.record g.entries) = some g := by
  have hbuilder : entryOr asText? "" g.entries "builder_name" = some g.builderName :=
    entryOr_string rfl
  have hfactory : entryOr asText? "" g.entries "factory" = some g.factory := entryOr_string rfl
  have hheader : entryOr asText? "" g.entries "header" = some g.header := entryOr_string rfl
  have houtput : entryOr asText? "" g.entries "output_dir" = some g.outputDir :=
    entryOr_string rfl
  have hsuffix : entryOr asText? "" g.entries "suffix" = some g.suffix := entryOr_string rfl
  have hparallelism : entryOr asInt? 0 g.entries "parallelism" = some g.parallelism :=
    entryOr_of_lookup (e := .int g.parallelism) rfl
  simp only [asGenerate?, asRecord?, Option.bind_eq_bind, Option.bind_some,
    hbuilder, hfactory, hheader, houtput, hsuffix, hparallelism]
  rfl

theorem asTypes?_entries (t : TypesConfig) : asTypes? (.record t.entries) = some t.listed := by
  have helementary :
      entryOr (fun d => (asList? asText? d).map some) none t.entries "elementary" =
      some (some (t.elementary.getD [])) := entryOr_strings rfl
  have hlookup : List.lookup "enums" t.entries =
      some (.list ((t.enums.getD []).map (Data.record ∘ EnumConfig.entries))) := by
    rw [← List.map_map]
    rfl
  have henums : entryOr (fun d => (asList? asEnum? d).map some) none t.entries "enums" =
      some (some ((t.enums.getD []).map EnumConfig.listed)) :=
        entryOr_list asEnum?_entries hlookup
  simp only [asTypes?, asRecord?, Option.bind_eq_bind, Option.bind_some, helementary, henums]
  rfl

theorem asLog?_entries (l : LogConfig) : asLog? (.record l.entries) = some l := rfl

/-- What is not the requirement is found in the tables. -/
theorem lookup_settings (c : Config) (hname : name ≠ "requires") :
    List.lookup name (c.settings ++ c.unmentioned) = c.tableSettings.lookup name := by
  have hsingle : ∀ e : Data, List.lookup name [("requires", e)] = none := fun e =>
    lookup_of_notMem (by simpa using hname)
  have hfront : List.lookup name c.requirement = none := by
    rw [requirement]
    split
    · rfl
    · exact hsingle _
  have hbehind : List.lookup name c.unmentioned = none := by
    rw [unmentioned]
    split
    · exact hsingle _
    · rfl
  rw [settings, List.lookup_append, List.lookup_append, hfront, hbehind,
    Option.none_or, Option.or_none]

/-- **Settings are taken as the configuration they were written for.** -/
theorem decode?_settings (c : Config) :
    decode? (.record (c.settings ++ c.unmentioned)) = some c.listed := by
  have hgenerate :
      entryOr asGenerate? ⟨"", "", "", "", "", 0⟩ (c.settings ++ c.unmentioned) "generate" =
      some c.generate := by
    rw [entryOr_of_lookup (lookup_settings c (by decide))]
    exact asGenerate?_entries _
  have htypes : entryOr asTypes? ⟨none, none⟩ (c.settings ++ c.unmentioned) "types" =
      some c.types.listed := by
    rw [entryOr_of_lookup (lookup_settings c (by decide))]
    exact asTypes?_entries _
  have hlog : entryOr asLog? ⟨false⟩ (c.settings ++ c.unmentioned) "log" = some c.log := by
    rw [entryOr_of_lookup (lookup_settings c (by decide))]
    exact asLog?_entries _
  have hrequires :
      entryOr asText? "" (c.settings ++ c.unmentioned) "requires" = some c.requires := by
    rw [settings, requirement, unmentioned]
    split
    · rename_i hempty
      rw [String.isEmpty_iff.1 hempty]
      exact entryOr_string rfl
    · exact entryOr_string rfl
  simp only [decode?, asRecord?, Option.bind_eq_bind, Option.bind_some, hgenerate,
    htypes, hlog, hrequires]
  rfl

/-! ## From a save to a load -/

/-- The last of some steps leaves what they leave together. -/
theorem inTurn_append_eq_ok {steps : List (Disk → Except Failure Disk)}
    {step : Disk → Except Failure Disk}
    (h : inTurn (steps ++ [step]) d = (.ok (), d')) : ∃ next, step next = .ok d' := by
  induction steps generalizing d with
  | nil =>
    obtain ⟨next, hstep, h⟩ := inTurn_cons_eq_ok h
    cases h
    exact ⟨d, hstep⟩
  | cons first steps ih =>
    obtain ⟨next, -, h⟩ := inTurn_cons_eq_ok h
    exact ih h

/-- **After a save, the path leads to the document of the configuration.** Whatever backups were
made before, the last step writes the file. -/
theorem read_of_save (h : c.save d cwd path = (.ok (), d')) :
    d'.read cwd path = .ok (Text.ofString (c.encode .toml)) := by
  rw [save] at h
  cases hmake : d.makeDirs cwd (Path.dir path) with
  | error r => rw [hmake] at h; cases h
  | ok made =>
    rw [hmake] at h
    obtain ⟨last, hwrite⟩ := inTurn_append_eq_ok h
    obtain ⟨hpath, hl, hfree, rfl⟩ := writeFile_eq_ok hwrite
    have hplace : destination cwd path ≠ [] := fun hroot => hfree (by rw [hroot, get?_nil])
    rw [Disk.read, stat_of_passed hpath (leads_set hl hfree _), get?_set_self _ hplace]
    rfl

/-- **A saved configuration is loaded as it was**, whatever its strings hold and whatever the
file system was: loading from the path of a save succeeds and gives the configuration, with an
empty list in place of every one that nobody mentioned.

What is read is the document, the document says the settings, and these are in force and taken
as the configuration. -/
theorem loadFile_of_save (hn : Fits c.generate.parallelism)
    (h : c.save d cwd path = (.ok (), d')) :
    Config.loadFile d' cwd path = .ok c.listed := by
  have hread : ConfigFile.read d' cwd path = .ok c.settings := by
    rw [ConfigFile.read, read_of_save h]
    dsimp only
    rw [read?_encode hn]
    dsimp only
    rw [(tidy_settings c).loweredEntries, ofLeaves_leaves (tidy_settings c)]
  rw [loadFile, hread]
  simp only [bind, Except.bind, effective_settings, decode?_settings]

/-! ## A round trip -/

/-- A configuration whose strings hold quotes, breaks and control characters, with lists that
nobody mentioned. -/
def quoted : Config :=
  { generate :=
      { builderName := "it's a \"builder\""
        factory := "back\\slash"
        header := "// one line\n// a\ttab\r\n\u0000\u001f\u007f"
        outputDir := "[types]\nelementary = 'none'"
        suffix := "\u00e9\u2028\u6f22 = #"
        parallelism := -9223372036854775808 }
    types :=
      { elementary := none
        enums := some [⟨"Colour", some ["'red'", "\"gr\\een\"", ""]⟩, ⟨"", none⟩] }
    log := { json := true }
    requires := ">= 1.0" }

/-- It is loaded as it was saved. -/
theorem loadFile_quoted :
    Fits quoted.generate.parallelism ∧
      quoted.save workplace "/w" "c/e.toml"
      = (.ok (), (quoted.save workplace "/w" "c/e.toml").2) ∧
      Config.loadFile (quoted.save workplace "/w" "c/e.toml").2 "/w" "c/e.toml"
      = .ok quoted.listed := by
  have hn : Fits quoted.generate.parallelism := ⟨by decide, by decide⟩
  have hsave : quoted.save workplace "/w" "c/e.toml" =
      (.ok (), (quoted.save workplace "/w" "c/e.toml").2) := save_eq_of_isOk (by decide +kernel)
  exact ⟨hn, hsave, loadFile_of_save hn hsave⟩

end Config

end Exemplar
