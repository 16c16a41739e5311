import Exemplar.Config.Validate
import Exemplar.Extract.Enumerations
import Exemplar.Extract.Mapping
import Exemplar.Proofs.Lookup
import Exemplar.Proofs.Token.Words

/-!
# How names are resolved

What a name stands for is settled in four places: the list of built-in classes, a tables file,
the configuration, and the enumerations of the unit the name stands in. An elementary name of
the tables file or of the configuration comes before every enumeration, also before one of a
stronger place; among the enumerations the stronger place wins.

Lists become tables on the way, and in a list of which the last entry for a name counts an
earlier one is lost. A valid configuration has no two entries for one name, so none of its
entries is.

The tables are laid over each other before anything is resolved, so a name is looked up twice
only: among the names that are known, and among the enumerations. The precedence is what the two
answers come to when the places are told apart again.
-/

namespace Exemplar

open Exemplar.Tree

variable {c : Config} {version : String} {n : Text}

/-! ## What validity keeps apart

The check goes over the enumerations and remembers the names it has seen. -/

/-- Enumerations that pass the check have different names, and none that was seen before. -/
theorem Config.nodup_of_checkEnums {seen : List String} {index : Nat} {es : List EnumConfig}
    (h : checkEnums seen index es = .ok ()) :
    (es.map (·.name)).Nodup ∧ ∀ e ∈ es, e.name ∉ seen := by
  induction es generalizing seen index with
  | nil => exact ⟨List.nodup_nil, fun _ he => absurd he List.not_mem_nil⟩
  | cons e rest ih =>
    rw [checkEnums] at h
    split at h
    · cases h
    split at h
    · cases h
    rename_i hfresh
    rw [List.contains_iff_mem] at hfresh
    obtain ⟨hnodup, hseen⟩ := ih h
    refine ⟨List.nodup_cons.2 ⟨fun hmem => ?_, hnodup⟩,
      List.forall_mem_cons.2 ⟨hfresh, fun e' he' hmem => ?_⟩⟩
    · obtain ⟨e', he', hname⟩ := List.mem_map.1 hmem
      exact hseen e' he' (hname ▸ List.mem_cons_self)
    · exact hseen e' he' (List.mem_cons_of_mem _ hmem)

/-- A valid configuration has passed the check. -/
theorem Config.checkEnums_of_validate (h : c.validate version = .ok ()) :
    checkEnums [] 0 c.enumList = .ok () := by
  rw [validate] at h
  cases hfind : ValueFactory.find c.generate.factory c.generate.builderName with
  | error f => rw [hfind] at h; cases h
  | ok factory =>
    rw [hfind] at h
    simp only [bind, Except.bind, throw, throwThe, MonadExceptOf.throw] at h
    split at h
    · cases h
    split at h
    · cases h
    cases hcheck : checkEnums [] 0 c.enumList with
    | error f => rw [hcheck] at h; cases h
    | ok u => rfl

/-- **A valid configuration has no two entries for one enumeration.** -/
theorem Config.nodup_of_validate (h : c.validate version = .ok ()) :
    (c.enumList.map (·.name)).Nodup :=
  (nodup_of_checkEnums (checkEnums_of_validate h)).1

/-! ## What tables answer

Entries are looked up from the last to the first, and the first that is found counts. -/

/-- The value names of an entry of a configuration. -/
def EnumConfig.valueNames (e : EnumConfig) : List Text := (e.values.getD []).map Text.ofString

/-- **No entry of a valid configuration is lost.** -/
theorem Config.enumValues?_tables (h : c.validate version = .ok ())
    {e : EnumConfig} (he : e ∈ c.enumList) :
    c.tables.enumValues? (Text.ofString e.name) = some e.valueNames := by
  refine lookup_of_mem ?_ (List.mem_reverse.2 (List.mem_map_of_mem he))
  have hnames : (c.enumList.map (·.name)).map Text.ofString =
      (c.enumList.map fun e => (Text.ofString e.name, e.valueNames)).map (·.1) := by
    rw [List.map_map, List.map_map]
    rfl
  rw [tables, Tables.ofLastEntries, List.map_reverse, List.nodup_reverse]
  exact hnames ▸ (Config.nodup_of_validate h).map fun _ _ hst => Text.ofString_inj.1 hst

/-- An enumeration that is not in the configuration is not in its tables. -/
theorem Config.enumValues?_tables_eq_none (h : ∀ e ∈ c.enumList, Text.ofString e.name ≠ n) :
    c.tables.enumValues? n = none := by
  rw [tables, Tables.ofLastEntries, Tables.enumValues?, List.lookup_eq_none_iff]
  intro e he
  obtain ⟨e', he', rfl⟩ := List.mem_map.1 (List.mem_reverse.1 he)
  exact bne_iff_ne.2 (h e' he').symm

/-- The elementary names are those of the list. -/
theorem Config.isElementary_tables :
    c.tables.isElementary n = true ↔ n ∈ c.elementaryList.map Text.ofString :=
  List.contains_iff_mem

namespace Tree.SourceUnit

variable {u : SourceUnit} {given : Tables}

/-- A unit adds no elementary names. -/
theorem isElementary_tables : (u.tables given).isElementary n = given.isElementary n := by
  rw [tables, Tables.isElementary_merge]
  exact Bool.or_false _

/-- Its enumerations come behind those that are given. -/
theorem enumValues?_tables : (u.tables given).enumValues? n =
    (given.enumValues? n).or (u.enums.reverse.lookup n) := by
  rw [tables, Tables.enumValues?_merge]
  rfl

/-- The enumerations of statements, one list behind another. -/
theorem enums_of_statements {before after : List Statement} {d : EnumDecl}
    (h : u.statements = before ++ .enumDecl d :: after) :
    u.enums = SourceUnit.enums ⟨u.span, u.name, before⟩ ++ d.entry ::
    SourceUnit.enums ⟨u.span, u.name, after⟩ := by
  rw [enums, h, List.filterMap_append]
  rfl

/-- A name that no enumeration of the unit has is not found among them. -/
theorem lookup_enums_eq_none {l : List (Text × List Text)} (hl : l = u.enums.reverse)
    (h : ∀ d, .enumDecl d ∈ u.statements → d.name.text ≠ n) : l.lookup n = none := by
  subst hl
  rw [List.lookup_eq_none_iff]
  intro e he
  rw [List.mem_reverse, enums, List.mem_filterMap] at he
  obtain ⟨s, hs, hentry⟩ := he
  cases s <;> cases hentry
  exact bne_iff_ne.2 (h _ hs).symm

/-- **The last of the declarations with one name counts.** -/
theorem lookup_enums {before after : List Statement} {d : EnumDecl}
    (h : u.statements = before ++ .enumDecl d :: after)
    (hlast : ∀ d', .enumDecl d' ∈ after → d'.name.text ≠ d.name.text) :
    u.enums.reverse.lookup d.name.text = some d.entry.2 := by
  rw [enums_of_statements h, List.reverse_append, List.reverse_cons,
    List.append_assoc, List.lookup_append,
      lookup_enums_eq_none (u := ⟨u.span, u.name, after⟩) rfl hlast, Option.none_or]
  exact List.lookup_cons_self

end Tree.SourceUnit

/-! ## What names stand for

The rule for names asks first whether a class is known, then for an enumeration, and takes a
name for one of the user if both fail. -/

/-- The tables the names of a unit are resolved with: those of a tables file, if there is one,
laid over those of a configuration, and both over the enumerations of the unit. -/
def resolutionTables (u : SourceUnit) (c : Config) (f : Option Tables) : Tables :=
  u.tables (f.elim c.tables (·.merge c.tables))

/-- A class that is known by its name only: a built-in one, or an elementary one of a tables
file or of a configuration. -/
def IsKnownClass (c : Config) (f : Option Tables) (n : Text) : Prop :=
  isBuiltIn n = true ∨ (∃ t ∈ f, t.isElementary n = true) ∨
    n ∈ c.elementaryList.map Text.ofString

/-- **The precedence of names**: what a type is that a name stands for. -/
structure Precedence (u : SourceUnit) (c : Config) (f : Option Tables)
    (n : Text) (arguments : List Ty)
    (ty : Ty) : Prop where
  /-- A class that is known by name is one before everything else. -/
  knownClass : IsKnownClass c f n → ty = .builtIn n
  /-- Then an enumeration of the tables file counts. -/
  ofTablesFile : ¬IsKnownClass c f n → ∀ t ∈ f, ∀ values, t.enumValues? n = some values →
    ty = .enum n values
  /-- Then an enumeration of the configuration, of which there is at most one with the name. -/
  ofConfig : ¬IsKnownClass c f n → (∀ t ∈ f, t.enumValues? n = none) →
    ∀ e ∈ c.enumList, Text.ofString e.name = n → ty = .enum n e.valueNames
  /-- Then the last enumeration of that name in the unit. -/
  ofUnit : ¬IsKnownClass c f n → (∀ t ∈ f, t.enumValues? n = none) →
    (∀ e ∈ c.enumList, Text.ofString e.name ≠ n) →
    ∀ before d after, u.statements = before ++ .enumDecl d :: after → d.name.text = n →
      (∀ d', .enumDecl d' ∈ after → d'.name.text ≠ n) →
      ty = .enum n (d.members.map fun m => memberAccess n m.name)
  /-- What nobody knows is a class of the user, with the arguments in order. -/
  ofUser : ¬IsKnownClass c f n → (∀ t ∈ f, t.enumValues? n = none) →
    (∀ e ∈ c.enumList, Text.ofString e.name ≠ n) →
    (∀ d, .enumDecl d ∈ u.statements → d.name.text ≠ n) → ty = .user n (arguments.map (.mk · []))

variable {u : SourceUnit} {f : Option Tables} {arguments : List Ty}

/-- A class is known in one of three places. -/
theorem isKnownClass_iff :
    (isBuiltIn n || (resolutionTables u c f).isElementary n) = true ↔ IsKnownClass c f n := by
  rw [IsKnownClass, resolutionTables, SourceUnit.isElementary_tables, Bool.or_eq_true]
  refine or_congr_right ?_
  cases f with
  | none =>
    rw [← Config.isElementary_tables]
    exact ⟨.inr, fun h => h.resolve_left fun ⟨_, ht, _⟩ => nomatch ht⟩
  | some t =>
    rw [← Config.isElementary_tables, Option.elim_some,
      Tables.isElementary_merge, Bool.or_eq_true]
    exact or_congr_left ⟨fun h => ⟨t, rfl, h⟩, fun ⟨_, ht, h⟩ => Option.some.inj ht ▸ h⟩

/-- Enumerations are looked up in three places, in this order. -/
theorem enumValues?_resolutionTables : (resolutionTables u c f).enumValues? n =
    (f.bind (·.enumValues? n)).or ((c.tables.enumValues? n).or (u.enums.reverse.lookup n)) := by
  rw [resolutionTables, SourceUnit.enumValues?_tables]
  cases f with
  | none => rfl
  | some t => rw [Option.elim_some, Tables.enumValues?_merge, Option.or_assoc]; rfl

/-- A tables file that has no enumeration of a name is as good as none. -/
theorem bind_enumValues?_eq_none (h : ∀ t ∈ f, t.enumValues? n = none) :
    f.bind (·.enumValues? n) = none := by
  cases f with
  | none => rfl
  | some t => exact h t rfl

/-- What a name stands for that is no class known by name. -/
theorem Ty.ofName_of_not_isKnownClass (hn : ¬IsKnownClass c f n) (arguments : List Ty) :
    Ty.ofName (resolutionTables u c f) n arguments =
      ((resolutionTables u c f).enumValues? n).elim
      (.user n (arguments.map (.mk · []))) (.enum n) := by
  rw [Ty.ofName, if_neg (mt isKnownClass_iff.1 hn)]
  cases (resolutionTables u c f).enumValues? n <;> rfl

/-- **A name is resolved by the precedence**, if the configuration is valid. -/
theorem precedence_ofName (hvalid : c.validate version = .ok ())
    (u : SourceUnit) (f : Option Tables)
    (n : Text) (arguments : List Ty) :
    Precedence u c f n arguments (.ofName (resolutionTables u c f) n arguments) where
  knownClass hn := by rw [Ty.ofName, if_pos (isKnownClass_iff.2 hn)]
  ofTablesFile hn t ht values hvalues := by
    rw [Ty.ofName_of_not_isKnownClass hn, enumValues?_resolutionTables, Option.mem_def.1 ht,
      Option.bind_some, hvalues]
    rfl
  ofConfig hn hfile e he hname := by
    rw [Ty.ofName_of_not_isKnownClass hn, enumValues?_resolutionTables,
      bind_enumValues?_eq_none hfile, ← hname, Config.enumValues?_tables hvalid he]
    rfl
  ofUnit hn hfile hconfig before d after hunit hname hlast := by
    subst hname
    rw [Ty.ofName_of_not_isKnownClass hn, enumValues?_resolutionTables,
      bind_enumValues?_eq_none hfile, Config.enumValues?_tables_eq_none hconfig,
      SourceUnit.lookup_enums hunit hlast]
    rfl
  ofUser hn hfile hconfig hunit := by
    rw [Ty.ofName_of_not_isKnownClass hn, enumValues?_resolutionTables,
      bind_enumValues?_eq_none hfile, Config.enumValues?_tables_eq_none hconfig,
      SourceUnit.lookup_enums_eq_none rfl hunit]
    rfl

/-- Arguments that are missing are left out. -/
theorem mapTypes_eq_filter (tables : Tables) (types : List TypeExpr) :
    mapTypes tables types = (types.filter fun t => !t.isAbsent).map (·.toTy tables) := by
  induction types with
  | nil => rfl
  | cons t rest ih =>
    cases t with
    | absent => exact ih
    | _ => exact congrArg _ ih

/-- A reference is resolved by its name, with the arguments that are there. -/
theorem toTy_reference (tables : Tables) (span : Span) (name : Option Identifier)
    (arguments : Option (List TypeExpr)) :
    (TypeExpr.reference span name arguments).toTy tables = .ofName tables (identifierText name)
      (((arguments.getD []).filter fun t => !t.isAbsent).map (·.toTy tables)) := by
  cases arguments with
  | none => rfl
  | some types => rw [TypeExpr.toTy, mapTypes_eq_filter]; rfl

/-- **References are resolved by one precedence from end to end.** With a valid configuration, a
reference stands for a class known by name if the fixed list, the tables file or the
configuration has its name, else for the enumeration of the tables file, of the configuration or
of the unit, in this order, else for a class of the user. No entry of the configuration is lost
on the way: every elementary name is known, and every enumeration has the values of its own
entry unless the tables file has one.

The first part is the precedence for the name of the reference. The others say of each entry of
the configuration that it is found again in the tables. -/
theorem precedence_of_validate (hvalid : c.validate version = .ok ())
    (u : SourceUnit) (f : Option Tables)
    (span : Span) (name : Option Identifier) (arguments : Option (List TypeExpr)) :
    Precedence u c f (identifierText name)
      (((arguments.getD []).filter fun t => !t.isAbsent).map (·.toTy (resolutionTables u c f)))
      ((TypeExpr.reference span name arguments).toTy (resolutionTables u c f)) ∧
    (c.enumList.map (·.name)).Nodup ∧
    (∀ e ∈ c.enumList, (resolutionTables u c f).enumValues? (Text.ofString e.name) =
      (f.bind (·.enumValues? (Text.ofString e.name))).or (some e.valueNames)) ∧
    ∀ s ∈ c.elementaryList, (resolutionTables u c f).isElementary (Text.ofString s) = true := by
  refine ⟨?_, Config.nodup_of_validate hvalid, fun e he => ?_, fun s hs => ?_⟩
  · rw [toTy_reference]
    exact precedence_ofName hvalid u f _ _
  · rw [enumValues?_resolutionTables, Config.enumValues?_tables hvalid he]
    rfl
  · have hmem := Config.isElementary_tables.2 (List.mem_map_of_mem hs)
    rw [resolutionTables, SourceUnit.isElementary_tables]
    cases f with
    | none => exact hmem
    | some t =>
      rw [Option.elim_some, Tables.isElementary_merge, hmem]
      exact Bool.or_true _

/-- A configuration with an elementary class and an enumeration. -/
def moneyAndShape : Config :=
  { Config.default with
    types := ⟨some ["Money"], some [⟨"Shape", some ["Shape.round"]⟩]⟩ }

/-- An enumeration with one member. -/
def enumOf (name member : String) : EnumDecl :=
  ⟨default, default, ⟨default, Text.ofString name⟩, [⟨default, Text.ofString member, []⟩]⟩

/-- A unit with two enumerations. -/
def shapeAndSize : SourceUnit :=
  ⟨default, "a.ts", [.enumDecl (enumOf "Shape" "flat"), .enumDecl (enumOf "Size" "small")]⟩

/-- A tables file with an enumeration. -/
def moneyTables : Tables := ⟨[], [(Text.ofString "Money", [Text.ofString "Money.coin"])]⟩

/-- The elementary name of the configuration comes before the enumeration of the tables file,
and the enumeration of the configuration before the one of the unit. -/
theorem precedence_moneyAndShape :
    moneyAndShape.validate "dev" = .ok () ∧
    (∀ name ∈ ["Money", "Shape", "Size"],
      Precedence shapeAndSize moneyAndShape (some moneyTables) (Text.ofString name) []
        ((TypeExpr.reference default (some ⟨default, Text.ofString name⟩) none).toTy
          (resolutionTables shapeAndSize moneyAndShape (some moneyTables)))) ∧
    (TypeExpr.reference default (some ⟨default, Text.ofString "Money"⟩) none).toTy
      (resolutionTables shapeAndSize moneyAndShape (some moneyTables)) =
        .builtIn (Text.ofString "Money") ∧
    (TypeExpr.reference default (some ⟨default, Text.ofString "Shape"⟩) none).toTy
      (resolutionTables shapeAndSize moneyAndShape (some moneyTables)) =
        .enum (Text.ofString "Shape") [Text.ofString "Shape.round"] := by
  have hvalid : moneyAndShape.validate "dev" = .ok () := by decide +kernel
  have hall : ∀ name ∈ ["Money", "Shape", "Size"],
      Precedence shapeAndSize moneyAndShape (some moneyTables) (Text.ofString name) []
        ((TypeExpr.reference default (some ⟨default, Text.ofString name⟩) none).toTy
          (resolutionTables shapeAndSize moneyAndShape (some moneyTables))) :=
            fun name hname => by
    have hne : (Text.ofString name).isEmpty = false := by
      revert name
      decide
    have hprecedence := (precedence_of_validate hvalid shapeAndSize (some moneyTables) default
      (some ⟨default, Text.ofString name⟩) none).1
    rwa [identifierText, if_neg (Bool.eq_false_iff.1 hne)] at hprecedence
  refine ⟨hvalid, hall, (hall "Money" (by decide)).knownClass (.inr (.inr (by decide))), ?_⟩
  have hshape : ¬IsKnownClass moneyAndShape (some moneyTables) (Text.ofString "Shape") :=
    mt (isKnownClass_iff (u := shapeAndSize)).2 (by decide +kernel)
  refine (hall "Shape" (by decide)).ofConfig hshape ?_ ⟨"Shape", some ["Shape.round"]⟩
    (by decide +kernel) rfl
  rintro t ht
  cases ht
  decide

end Exemplar
