import Exemplar.Proofs.Config.Schema

/-!
# What well-typed settings are taken as

The effective settings of well-typed files are of the kind that is expected wherever they do not
come from a variable of the environment. A variable is a text, which is taken as a text or a
list of texts whatever it says, as a number or a truth value only if it says one, and as
enumerations never.

So whether the settings can be taken as a configuration depends on three variables and nothing
else (`Environment.Readable`), and the theorem is an equivalence (`WellTyped.isSome_decode?`).
Decoding goes through the tables of the settings entry by entry, and each entry is one key of
the schema, so decoding is brought into a form in which it asks for the values of keys
(`valueAs`). For a single key the answer is a case split on where its value comes from.
-/

namespace Exemplar

open Exemplar.Settings Exemplar.Config

variable {files es : Settings} {name key : String} {kind : Data → Bool}
  {d : Data} {env : Environment}
variable {α : Type} {as? : Data → Option α} {unset : α}

/-- The variables that are not taken as texts have values that can be read. -/
structure Environment.Readable (env : Environment) : Prop where
  parallelism : ∀ v, env.value? "FIXTUREGEN_GENERATE_PARALLELISM" = some v →
    (asInt? (.string v)).isSome
  json : ∀ v, env.value? "FIXTUREGEN_LOG_JSON" = some v → (asBool? (.string v)).isSome
  enums : env.value? "FIXTUREGEN_TYPES_ENUMS" = none

namespace Settings

/-! ## What each kind is taken as

A value of the kind that the schema expects is taken as what it is. The cases are the forms that
data can have, and all but one are no values of the kind. -/

/-- A text is taken as a text. -/
theorem isSome_asText? (h : isText d = true) : (asText? d).isSome := by
  cases d with
  | text t => rfl
  | _ => cases h

/-- A whole number is taken as a number. -/
theorem isSome_asInt? (h : isWhole d = true) : (asInt? d).isSome := by
  cases d with
  | int n => rfl
  | _ => cases h

/-- A truth value is taken as one. -/
theorem isSome_asBool? (h : isTruth d = true) : (asBool? d).isSome := by
  cases d with
  | bool b => rfl
  | _ => cases h

/-- A list is taken as a list if each of its items is taken as an item. -/
theorem isSome_mapM {β : Type} {f : β → Option α} {items : List β}
    (h : ∀ b ∈ items, (f b).isSome) :
    (items.mapM f).isSome := by
  induction items with
  | nil => rfl
  | cons b items ih =>
    obtain ⟨hb, hrest⟩ := List.forall_mem_cons.1 h
    obtain ⟨a, ha⟩ := Option.isSome_iff_exists.1 hb
    obtain ⟨as, has⟩ := Option.isSome_iff_exists.1 (ih hrest)
    rw [List.mapM_cons, ha, has]
    rfl

/-- A list of texts is taken as a list of texts. -/
theorem isSome_texts (h : isTexts d = true) : (asList? asText? d).isSome := by
  cases d with
  | list items => exact isSome_mapM fun d hd => isSome_asText? (List.all_eq_true.1 h d hd)
  | _ => cases h

/-- A table with a name and values, each of its kind or missing, is taken as an enumeration.
What is missing is taken as the empty name and as no values. -/
theorem isSome_asEnum? (h : isEnum d = true) : (asEnum? d).isSome := by
  cases d with
  | record es =>
    obtain ⟨hname, hvalues⟩ := Bool.and_eq_true _ _ ▸ h
    have hname' : (entryOr asText? "" es "name").isSome := by
      rw [entryOr]
      cases hlookup : es.lookup "name" with
      | none => rfl
      | some d => exact isSome_asText? (by rwa [hlookup] at hname)
    have hvalues' :
        (entryOr (fun d => (asList? asText? d).map some) none es "values").isSome := by
      rw [entryOr]
      cases hlookup : es.lookup "values" with
      | none => rfl
      | some d =>
        rw [hlookup] at hvalues
        rw [Option.isSome_map]
        exact isSome_texts hvalues
    obtain ⟨n, hn⟩ := Option.isSome_iff_exists.1 hname'
    obtain ⟨v, hv⟩ := Option.isSome_iff_exists.1 hvalues'
    simp only [asEnum?, asRecord?, Option.bind_eq_bind, Option.bind_some, hn, hv]
    rfl
  | _ => cases h

/-- A list of such tables is taken as enumerations. -/
theorem isSome_enums (h : isEnums d = true) : (asList? asEnum? d).isSome := by
  cases d with
  | list items => exact isSome_mapM fun d hd => isSome_asEnum? (List.all_eq_true.1 h d hd)
  | _ => cases h

/-- A text is taken as a list of texts, whatever it says. It is cut at its commas, and each
piece is a text. The empty text is the empty list. -/
theorem isSome_texts_string (s : String) : (asList? asText? (.string s)).isSome := by
  rw [Data.string]
  cases Text.ofString s with
  | nil => rfl
  | cons g t => exact isSome_mapM fun s _ => rfl

/-- A text is never taken as enumerations, unless it is empty. It is cut at its commas as well,
but no piece is a table, and there is at least one. -/
theorem enums_string {s : String} (h : s ≠ "") : asList? asEnum? (.string s) = none := by
  rw [Data.string]
  cases htext : Text.ofString s with
  | nil => exact absurd (by rw [← Toml.toString_ofString s, htext]; rfl) h
  | cons g t =>
    obtain ⟨part, rest, hsplit⟩ := List.exists_cons_of_ne_nil
      (show Text.splitString ',' (Text.toString (g :: t)) ≠ [] from
        fun hnil => splitAt_ne_nil _ _ (List.map_eq_nil_iff.1 hnil))
    have hparts : asList? asEnum? (.text (g :: t)) =
        (Text.splitString ',' (Text.toString (g :: t))).mapM fun s => asEnum? (.string s) := rfl
    rw [hparts, hsplit, List.mapM_cons]
    rfl

/-- A variable that is set to the empty text counts as not set. -/
theorem value?_ne_empty {v : String} (h : env.value? name = some v) : v ≠ "" := by
  rw [Environment.value?] at h
  split at h
  · split at h
    · cases h
    · rename_i hempty
      exact fun heq => hempty (Option.some.inj h ▸ heq ▸ rfl)
  · cases h

/-! ## What the effective settings are taken as

A setting has a value in the environment, in the files or built in, in this order, or none. The
files and the built-in settings are well-typed, so only a value from the environment can be of
the wrong kind. -/

/-- What the value of a key is taken as. -/
def valueAs (as? : Data → Option α) (unset : α) (env : Environment)
    (files : Settings) (key : String) :
    Option α :=
  (value? env files key).elim (some unset) as?

/-- The entry of a table, or a value in its place if the table has none. -/
theorem entryOr_eq_elim (as? : Data → Option α) (unset : α) (es : Settings) (name : String) :
    entryOr as? unset es name = (es.lookup name).elim (some unset) as? := by
  rw [entryOr]
  cases es.lookup name <;> rfl

/-- Where settings have a table or nothing, nothing is taken as an empty table. So a missing
table and an empty one are taken as the same. -/
theorem entryOr_tableAt (hempty : as? (.record []) = some unset)
    (htable : (es.lookup name).all isTable = true) :
    entryOr as? unset es name = as? (.record (es.tableAt name)) := by
  rw [entryOr, tableAt]
  cases hlookup : es.lookup name with
  | none => exact hempty.symm
  | some d =>
    rw [hlookup] at htable
    cases d with
    | record sub => rfl
    | _ => cases htable

/-- **A setting is taken as its value is**: from the environment a text, and else what is
expected. -/
theorem WellTyped.isSome_valueAs (h : WellTyped files) (htidy : Tidy files)
    (he : (key, kind) ∈ schema)
    (hkind : ∀ {d}, kind d = true → (as? d).isSome) : (valueAs as? unset env files key).isSome ↔
      ∀ v, env.value? (variableName key) = some v → (as? (.string v)).isSome := by
  rw [valueAs, h.value?_eq htidy (List.mem_map_of_mem he)]
  cases env.value? (variableName key) with
  | some v => simp
  | none =>
    -- Without the variable, the value comes from a file or is built in.
    refine iff_of_true ?_ nofun
    rw [Option.elim_none]
    split
    · rfl
    · have hown := h.values _ he
      have hbuiltIn := wellTyped_builtIn.values _ he
      cases hfollow : follow (keyNames key) files with
      | some d =>
        rw [hfollow] at hown
        exact hkind hown
      | none =>
        rw [Option.none_or]
        cases hfollow : follow (keyNames key) builtIn with
        | some d =>
          rw [hfollow] at hbuiltIn
          exact hkind hbuiltIn
        | none => rfl

/-- The text that the value of a key is. -/
def textOf (env : Environment) (files : Settings) (key : String) : String :=
  (valueAs asText? "" env files key).getD ""

/-- A setting that is a text is always taken as one, since a variable is a text too. -/
theorem WellTyped.valueAs_text (h : WellTyped files) (htidy : Tidy files)
    (he : (key, isText) ∈ schema)
    (env : Environment) : valueAs asText? "" env files key = some (textOf env files key) := by
  have hsome : (valueAs asText? "" env files key).isSome :=
    (h.isSome_valueAs htidy he isSome_asText?).2 fun v _ => rfl
  obtain ⟨t, ht⟩ := Option.isSome_iff_exists.1 hsome
  rw [textOf, ht, Option.getD_some]

/-- What a setting in a table is taken as. The effective settings hold at the path of a key what
the key is worth, so looking an entry up in its table is asking for the value of the key. -/
theorem WellTyped.entryOr_effective (h : WellTyped files) (htidy : Tidy files) {table : String}
    (hkey : key ∈ schemaKeys) (hnames : keyNames key = [table, name]) (env : Environment) :
    entryOr as? unset ((effective env files).tableAt table) name
      = valueAs as? unset env files key := by
  rw [valueAs, ← h.follow_effective htidy hkey, hnames,
    follow_cons (List.cons_ne_nil _ _), entryOr_eq_elim]
  rfl

/-- The settings for generating: five texts, which are always there, and the number of units at
a time. -/
theorem WellTyped.asGenerate?_effective (h : WellTyped files)
    (htidy : Tidy files) (env : Environment) :
    asGenerate? (.record ((effective env files).tableAt "generate")) =
      (valueAs asInt? 0 env files "generate.parallelism").map fun parallelism =>
        { builderName := textOf env files "generate.builder_name"
          factory := textOf env files "generate.factory"
          header := textOf env files "generate.header"
          outputDir := textOf env files "generate.output_dir"
          suffix := textOf env files "generate.suffix"
          parallelism := parallelism } := by
  -- The texts are taken as they are, whatever is set.
  have htext : ∀ name key, (key, isText) ∈ schema → keyNames key = ["generate", name] →
      entryOr asText? "" ((effective env files).tableAt "generate") name
      = some (textOf env files key) :=
    fun name key he hnames => by
      rw [h.entryOr_effective htidy (List.mem_map_of_mem he) hnames, h.valueAs_text htidy he]
  simp only [asGenerate?, asRecord?, Option.bind_eq_bind, Option.bind_some,
    htext "builder_name" "generate.builder_name" (by simp [schema]) (by decide +kernel),
    htext "factory" "generate.factory" (by simp [schema]) (by decide +kernel),
    htext "header" "generate.header" (by simp [schema]) (by decide +kernel),
    htext "output_dir" "generate.output_dir" (by simp [schema]) (by decide +kernel),
    htext "suffix" "generate.suffix" (by simp [schema]) (by decide +kernel)]
  rw [h.entryOr_effective htidy
    (by decide : "generate.parallelism" ∈ schemaKeys) (by decide +kernel)]
  cases valueAs asInt? 0 env files "generate.parallelism" <;> rfl

/-- The settings for types: two lists, of which either may be unfit. -/
theorem WellTyped.asTypes?_effective (h : WellTyped files)
    (htidy : Tidy files) (env : Environment) :
    asTypes? (.record ((effective env files).tableAt "types")) =
      (valueAs (fun d => (asList? asText? d).map some) none env files "types.elementary").bind
        fun elementary =>
        (valueAs (fun d => (asList? asEnum? d).map some) none env files "types.enums").map
          fun enums => { elementary := elementary, enums := enums } := by
  simp only [asTypes?, asRecord?, Option.bind_eq_bind, Option.bind_some]
  rw [h.entryOr_effective htidy
    (by decide : "types.elementary" ∈ schemaKeys) (by decide +kernel),
    h.entryOr_effective htidy (by decide : "types.enums" ∈ schemaKeys) (by decide +kernel)]
  refine congrArg (Option.bind _) (funext fun elementary => ?_)
  cases valueAs (fun d => (asList? asEnum? d).map some) none env files "types.enums" <;> rfl

/-- The settings for logging: a truth value. -/
theorem WellTyped.asLog?_effective (h : WellTyped files)
    (htidy : Tidy files) (env : Environment) :
    asLog? (.record ((effective env files).tableAt "log")) =
      (valueAs asBool? false env files "log.json").map LogConfig.mk := by
  simp only [asLog?, asRecord?, Option.bind_eq_bind, Option.bind_some]
  rw [h.entryOr_effective htidy (by decide : "log.json" ∈ schemaKeys) (by decide +kernel)]
  cases valueAs asBool? false env files "log.json" <;> rfl

/-- **What the effective settings of well-typed files are taken as**: the parts that are not
texts may be unfit. Each of the three tables is decoded by itself, and the configuration is put
together if all of them are fit. A table that nobody mentions is decoded as an empty one. -/
theorem WellTyped.decode?_effective (h : WellTyped files)
    (htidy : Tidy files) (env : Environment) :
    decode? (.record (effective env files)) =
      (asGenerate? (.record ((effective env files).tableAt "generate"))).bind fun generate =>
      (asTypes? (.record ((effective env files).tableAt "types"))).bind fun types =>
      (asLog? (.record ((effective env files).tableAt "log"))).map fun log =>
        { generate := generate, types := types, log := log,
          requires := textOf env files "requires" } := by
  have hrequires : entryOr asText? "" (effective env files) "requires"
      = some (textOf env files "requires") := by
    rw [← h.valueAs_text htidy (by simp [schema]), valueAs,
      ← h.follow_effective htidy (by decide), entryOr_eq_elim]
    rfl
  -- What an empty table is taken as.
  have hgenerate : asGenerate? (.record []) = some ⟨"", "", "", "", "", 0⟩ := rfl
  have htypes : asTypes? (.record []) = some ⟨none, none⟩ := rfl
  have hlog : asLog? (.record []) = some ⟨false⟩ := rfl
  simp only [decode?, asRecord?, Option.bind_eq_bind, Option.bind_some, hrequires]
  rw [entryOr_tableAt hgenerate (h.isTable_effective htidy (by decide) env),
    entryOr_tableAt htypes (h.isTable_effective htidy (by decide) env),
    entryOr_tableAt hlog (h.isTable_effective htidy (by decide) env)]
  refine congrArg (Option.bind _)
    (funext fun generate => congrArg (Option.bind _) (funext fun types => ?_))
  cases asLog? (.record ((effective env files).tableAt "log")) <;> rfl

/-- Two steps succeed exactly if both do, provided that the second does not depend on the answer
of the first. -/
theorem isSome_bind_iff {β : Type} {o : Option α} {f : α → Option β} {p : Prop}
    (h : ∀ a, (f a).isSome ↔ p) : (o.bind f).isSome ↔ o.isSome ∧ p := by
  cases o with
  | none => simp
  | some a => simp [h a]

/-- **The effective settings of well-typed files fit exactly if the environment can be read.**
Four settings are no texts. Elementary types are a list of texts, for which any variable is fit.
The other three give the three conditions on the environment: the number and the truth value
have to be readable, and enumerations must not be set there at all. -/
theorem WellTyped.isSome_decode? (h : WellTyped files) (htidy : Tidy files) (env : Environment) :
    (decode? (.record (effective env files))).isSome ↔ env.Readable := by
  have hparallelism : (valueAs asInt? 0 env files "generate.parallelism").isSome ↔
      ∀ v, env.value? "FIXTUREGEN_GENERATE_PARALLELISM" = some v →
          (asInt? (.string v)).isSome := by
    rw [h.isSome_valueAs htidy (by simp [schema]) isSome_asInt?]
    rw [show variableName "generate.parallelism"
      = "FIXTUREGEN_GENERATE_PARALLELISM" by decide +kernel]
  have hjson : (valueAs asBool? false env files "log.json").isSome ↔
      ∀ v, env.value? "FIXTUREGEN_LOG_JSON" = some v → (asBool? (.string v)).isSome := by
    rw [h.isSome_valueAs htidy (by simp [schema]) isSome_asBool?]
    rw [show variableName "log.json" = "FIXTUREGEN_LOG_JSON" by decide +kernel]
  -- A variable is taken as a list of texts whatever it says.
  have helementary : (valueAs (fun d => (asList? asText? d).map some) none env files
      "types.elementary").isSome := by
    have he : ("types.elementary", isTexts) ∈ schema := by simp [schema]
    refine (h.isSome_valueAs htidy he fun hd => ?_).2 fun v _ => ?_
    · rw [Option.isSome_map, isSome_texts hd]
    · rw [Option.isSome_map, isSome_texts_string]
  have henums :
      (valueAs (fun d => (asList? asEnum? d).map some) none env files "types.enums").isSome ↔
      env.value? "FIXTUREGEN_TYPES_ENUMS" = none := by
    have he : ("types.enums", isEnums) ∈ schema := by simp [schema]
    rw [h.isSome_valueAs htidy he fun hd => by rw [Option.isSome_map, isSome_enums hd],
      show variableName "types.enums" = "FIXTUREGEN_TYPES_ENUMS" by decide +kernel]
    -- No text is taken as enumerations, so the variable must not be set.
    constructor
    · intro hall
      cases hv : env.value? "FIXTUREGEN_TYPES_ENUMS" with
      | none => rfl
      | some v =>
        have hsome := hall v hv
        rw [enums_string (value?_ne_empty hv)] at hsome
        cases hsome
    · intro hnone v hv
      rw [hnone] at hv
      cases hv
  rw [h.decode?_effective htidy, h.asGenerate?_effective htidy, h.asTypes?_effective htidy,
    h.asLog?_effective htidy]
  rw [isSome_bind_iff fun _ => isSome_bind_iff
    fun _ => by rw [Option.isSome_map, Option.isSome_map, hjson],
    isSome_bind_iff fun _ => by rw [Option.isSome_map, henums], Option.isSome_map, hparallelism]
  constructor
  · rintro ⟨hp, ⟨-, he⟩, hj⟩
    exact ⟨hp, hj, he⟩
  · exact fun hr => ⟨hr.parallelism, ⟨helementary, hr.enums⟩, hr.json⟩

/-- **The texts of a configuration are the values of their settings.** -/
theorem WellTyped.texts_of_decode? (h : WellTyped files) (htidy : Tidy files) {c : Config}
    (hc : decode? (.record (effective env files)) = some c) :
    c.generate.builderName = textOf env files "generate.builder_name" ∧
      c.generate.factory = textOf env files "generate.factory" ∧
      c.generate.header = textOf env files "generate.header" ∧
      c.generate.outputDir = textOf env files "generate.output_dir" ∧
      c.generate.suffix = textOf env files "generate.suffix" ∧
      c.requires = textOf env files "requires" := by
  rw [h.decode?_effective htidy, h.asGenerate?_effective htidy] at hc
  obtain ⟨generate, hgenerate, hc⟩ := Option.bind_eq_some_iff.1 hc
  obtain ⟨parallelism, -, rfl⟩ := Option.map_eq_some_iff.1 hgenerate
  obtain ⟨types, -, hc⟩ := Option.bind_eq_some_iff.1 hc
  obtain ⟨log, -, rfl⟩ := Option.map_eq_some_iff.1 hc
  exact ⟨rfl, rfl, rfl, rfl, rfl, rfl⟩

end Settings

end Exemplar
