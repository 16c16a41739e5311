import Exemplar.Proofs.Pass.Failing
import Exemplar.Proofs.Path.Cleaning

/-!
# Where builders go and when units share a file

The output file of a unit lies in the output directory itself, however that directory is
written: the name behind it is a single name, or one with a slash in front of it for a unit
whose path is made of slashes only, and what cleaning takes away it takes away in front of the
name. So two outputs are told apart by their names, and those are the stems of the units with
one suffix behind them.

The check for collisions looks at the units one after the other and remembers the last unit of
every output. It refuses a list exactly if two different paths in it have one output; a path
that is listed twice does not collide with itself.
-/

namespace Exemplar.Path

variable {p q n : List Char}

/-- **Behind a directory, a path with one name cleans to that name in the clean directory.** The
names in front of it may be empty. -/
theorem exists_stack_behind {gaps : List (List Char)} (hp : p ≠ [])
    (hq : segments q = gaps ++ [n])
    (hgaps : ∀ s ∈ gaps, s = []) (hn : IsName n) :
    Neat (isRooted p) (n :: (segments p).foldl (follow (isRooted p)) []) ∧
      cleanChars (p ++ '/' :: q)
      = ofStack (isRooted p) (n :: (segments p).foldl (follow (isRooted p)) []) := by
  have hneat : Neat (isRooted p) ((segments p).foldl (follow (isRooted p)) []) :=
    neat_foldl trivial fun _ => slash_notMem_segments
  have hrooted : isRooted (p ++ '/' :: q) = isRooted p := by
    obtain ⟨c, rest, rfl⟩ := List.exists_cons_of_ne_nil hp
    rfl
  have hskip : ∀ stack, gaps.foldl (follow (isRooted p)) stack = stack := by
    clear hq
    induction gaps with
    | nil => exact fun _ => rfl
    | cons s gaps ih =>
      obtain ⟨rfl, hrest⟩ := List.forall_mem_cons.1 hgaps
      exact ih hrest
  refine ⟨⟨.inl hn, hneat⟩, ?_⟩
  rw [cleanChars_eq_ofStack, hrooted, segments_append, hq, List.foldl_append,
    List.foldl_append, hskip, List.foldl_cons, List.foldl_nil, follow_of_isName hn]

end Exemplar.Path

namespace Exemplar.Pass

open Exemplar.Path

variable {unit dir suffix : String} {name s : List Char}

/-! ## Stems -/

/-- What is left of a name without an ending: endings are tried one after the other, and the
first that the name has is taken away. -/
inductive Stem : List (List Char) → List Char → List Char → Prop
  /-- The name has none of the endings. -/
  | whole {name : List Char} : Stem [] name name
  /-- The name has the first ending. -/
  | found {ending s : List Char} {endings : List (List Char)} :
      Stem (ending :: endings) (s ++ ending) s
  /-- The name does not have the first ending, and the next ones are tried. -/
  | tried {ending name s : List Char} {endings : List (List Char)} (h : ¬ending <:+ name)
    (hrest : Stem endings name s) : Stem (ending :: endings) name s

/-- The endings of a source in the order in which they are tried. -/
def endings : List (List Char) := [".d.ts".toList, ".tsx".toList, ".ts".toList]

theorem withoutEnding?_append (s ending : List Char) :
    withoutEnding? ending (s ++ ending) = some s := by
  rw [withoutEnding?, if_pos (List.isSuffixOf_iff_suffix.2 (List.suffix_append s ending)),
    List.length_append, Nat.add_sub_cancel, List.take_left]

theorem withoutEnding?_of_not_suffix {ending : List Char} (h : ¬ending <:+ name) :
    withoutEnding? ending name = none :=
  if_neg (mt List.isSuffixOf_iff_suffix.1 h)

/-- Trying endings takes away the first that the name has. -/
theorem stem_iff_findSome? {endings : List (List Char)} :
    Stem endings name s ↔ (endings.findSome? (withoutEnding? · name)).getD name = s := by
  induction endings with
  | nil =>
    exact ⟨fun h => (by cases h; rfl), fun h => (by rw [← show name = s from h]; exact .whole)⟩
  | cons ending endings ih =>
    rw [List.findSome?_cons]
    by_cases hsuffix : ending <:+ name
    · obtain ⟨t, rfl⟩ := hsuffix
      rw [withoutEnding?_append]
      refine ⟨fun h => ?_, fun h => ?_⟩
      · generalize hname : t ++ ending = name at h
        cases h with
        | found => exact List.append_cancel_right hname
        | tried h => exact absurd ⟨t, hname⟩ h
      · rw [← show t = s from h]
        exact .found
    · rw [withoutEnding?_of_not_suffix hsuffix]
      refine ⟨fun h => ?_, fun h => .tried hsuffix (ih.2 h)⟩
      cases h with
      | found => exact absurd (List.suffix_append _ _) hsuffix
      | tried _ h => exact ih.1 h

/-- The stem of a name is what is left of it without the ending of a source. -/
theorem stem_iff : Stem endings name s ↔ stem name = s := by
  rw [stem_iff_findSome?, stem, show sourceEndings = endings by simp [sourceEndings, endings]]

/-! ## Output files -/

/-- A suffix without a slash that is empty or an ending of a source is no path of its own. -/
theorem plainSuffix_of_source (hslash : '/' ∉ suffix.toList)
    (hsource : suffix = "" ∨ ".ts".toList <:+ suffix.toList) :
    PlainSuffix suffix := by
  have hlength : suffix ≠ "" → 3 ≤ suffix.toList.length := fun hne =>
    (hsource.resolve_left hne).length_le
  refine ⟨hslash, ?_, ?_⟩
  · rintro rfl
    exact absurd (hlength (by decide)) (by decide)
  · rintro rfl
    exact absurd (hlength (by decide)) (by decide)

/-- The name of an output file is a single name, and only for the root there is a slash in front
of it. -/
theorem exists_name_outputName (hs : PlainSuffix suffix) (unit : String) :
    ∃ gaps n, segments (outputName unit suffix).toList = gaps ++ [n] ∧
    (∀ s ∈ gaps, s = []) ∧ IsName n := by
  by_cases hbase : '/' ∈ baseChars unit.toList
  · -- the path is made of slashes, so nothing is taken away from its last name
    have hroot : baseChars unit.toList = ['/'] := by
      by_cases hp : unit.toList = [] ∨ trimSlashes unit.toList ≠ []
      · exact absurd hbase (slash_notMem_baseChars hp)
      · rw [not_or, not_not] at hp
        rw [baseChars, if_neg (by simpa using hp.1), hp.2]
    have hname : (outputName unit suffix).toList
        = [] ++ '/' :: (effectiveSuffix suffix).toList := by
      rw [outputName, String.toList_append, String.toList_ofList, hroot]
      rfl
    have heff := hs.effective
    refine ⟨[[]], (effectiveSuffix suffix).toList, ?_, by simp,
      ⟨effectiveSuffix_ne_nil suffix, heff.slash, fun h => heff.ne_here (String.toList_inj.1 h),
        fun h => heff.ne_above (String.toList_inj.1 h)⟩⟩
    rw [hname, segments_append, segments_of_notMem heff.slash]
    rfl
  · have hname := isName_outputName hs hbase
    exact ⟨[], _, segments_of_notMem hname.slash, by simp, hname⟩

theorem toList_outputPath (hdir : dir ≠ "") (unit suffix : String) :
    (outputPath unit dir suffix).toList
      = cleanChars (dir.toList ++ '/' :: (outputName unit suffix).toList) := by
  have hempty : ¬dir.isEmpty = true := fun h => hdir (String.isEmpty_iff.1 h)
  rw [outputPath_eq, join, if_neg hempty, clean, String.toList_ofList,
    String.toList_append, String.toList_append]
  simp

/-- **An output file lies in the output directory.** -/
theorem dir_outputPath (hdir : dir ≠ "") (hs : PlainSuffix suffix) (unit : String) :
    Path.dir (outputPath unit dir suffix) = clean dir := by
  have hne : dir.toList ≠ [] := fun h => hdir (String.toList_eq_nil_iff.1 h)
  obtain ⟨gaps, n, hsegments, hgaps, hn⟩ := exists_name_outputName hs unit
  obtain ⟨hneat, hclean⟩ := exists_stack_behind hne hsegments hgaps hn
  have hpath := (toList_outputPath hdir unit suffix).trans hclean
  rw [Path.dir, hpath, hneat.cleanChars_upToSlash, List.tail_cons, clean,
    cleanChars_eq_ofStack dir.toList]

/-- **An output file has the name of its unit's stem** with the suffix. -/
theorem outputPath_inj_iff {u v : String} (hs : PlainSuffix suffix)
    (hu : '/' ∉ baseChars u.toList) (hv : '/' ∉ baseChars v.toList) :
    outputPath u dir suffix = outputPath v dir suffix ↔
    stem (baseChars u.toList) = stem (baseChars v.toList) := by
  constructor
  · intro h
    obtain ⟨front, hfront⟩ := segments_join (isName_outputName hs hu) dir
    obtain ⟨front', hfront'⟩ := segments_join (isName_outputName hs hv) dir
    rw [← outputPath_eq, h, outputPath_eq, hfront'] at hfront
    have hname := (List.append_inj' hfront (by simp)).2
    rw [List.singleton_inj, outputName, outputName, String.toList_append,
      String.toList_append, String.toList_ofList, String.toList_ofList] at hname
    exact (List.append_cancel_right hname).symm
  · intro h
    rw [outputPath, outputPath, h]

/-! ## Collisions -/

/-- **A list of units is refused exactly if two different units in it share an output.** -/
theorem exists_collision_iff (output : String → String) (units : List String) :
    (∃ found, collisionAfter output [] units = some found) ↔
      ∃ u ∈ units, ∃ v ∈ units, u ≠ v ∧ output u = output v := by
  constructor
  · rintro ⟨found, h⟩
    exact exists_of_collisionAfter (fun _ hx => absurd hx List.not_mem_nil)
      (List.Subset.refl units) h
  · rintro ⟨u, hu, v, hv, hne, heq⟩
    cases h : collisionAfter output [] units with
    | some found => exact ⟨found, rfl⟩
    | none => exact absurd (eq_of_output_eq h hu hv heq) hne

theorem checkCollisions_eq_error_iff {o : Options}
    (hdir : o.outputDir ≠ "") (units : List String) :
    (∃ f, o.checkCollisions units = .error f) ↔ ∃ u ∈ units, ∃ v ∈ units,
      u ≠ v ∧ outputPath u o.outputDir o.suffix = outputPath v o.outputDir o.suffix := by
  rw [← exists_collision_iff (fun u => outputPath u o.outputDir o.suffix),
    Options.checkCollisions, if_neg (by simpa using hdir)]
  cases collisionAfter (fun u => outputPath u o.outputDir o.suffix) [] units with
  | none => exact ⟨fun ⟨_, h⟩ => (by cases h), fun ⟨_, h⟩ => (by cases h)⟩
  | some found => exact ⟨fun _ => ⟨found, rfl⟩, fun _ => ⟨_, rfl⟩⟩

/-- **Output files stay in the output directory, and they collide exactly if their stems do.**
For every output directory and every suffix of a source, the directory of an output file is the
clean output directory, and a list of units is refused exactly if two different paths in it have
one output. Units whose last name is not that of the root have one output exactly if their names
have one stem. No suffix is as good as the usual one. -/
theorem outputs_collide_iff {o : Options} (hdir : o.outputDir ≠ "")
    (hslash : '/' ∉ o.suffix.toList)
    (hsource : o.suffix = "" ∨ ".ts".toList <:+ o.suffix.toList) :
    (∀ unit, Path.dir (outputPath unit o.outputDir o.suffix) = clean o.outputDir) ∧
    (∀ units, (∃ f, o.checkCollisions units = .error f) ↔ ∃ u ∈ units, ∃ v ∈ units,
      u ≠ v ∧ outputPath u o.outputDir o.suffix = outputPath v o.outputDir o.suffix) ∧
    (∀ u v, base u ≠ "/" → base v ≠ "/" →
      (outputPath u o.outputDir o.suffix = outputPath v o.outputDir o.suffix ↔
        ∃ s, Stem endings (base u).toList s ∧ Stem endings (base v).toList s)) ∧
    (o.suffix = "" → ∀ unit, outputPath unit o.outputDir o.suffix
      = outputPath unit o.outputDir ".builder.ts") := by
  have hs := plainSuffix_of_source hslash hsource
  refine ⟨dir_outputPath hdir hs, checkCollisions_eq_error_iff hdir,
    fun u v hu hv => ?_, fun hempty unit => ?_⟩
  · have hname : ∀ {w : String}, base w ≠ "/" → '/' ∉ baseChars w.toList := by
      intro w hw
      refine slash_notMem_baseChars (Classical.or_iff_not_imp_left.2 fun hne htrim => hw ?_)
      rw [base, baseChars, if_neg (by simpa using hne), htrim]
    rw [outputPath_inj_iff hs (hname hu) (hname hv), base, base,
      String.toList_ofList, String.toList_ofList]
    exact ⟨fun h => ⟨_, stem_iff.2 rfl, stem_iff.2 h.symm⟩,
      fun ⟨s, hs, hs'⟩ => (stem_iff.1 hs).trans (stem_iff.1 hs').symm⟩
  · rw [hempty]
    rfl

/-- A directory that is not clean, and no suffix. -/
def looseOptions : Options := { headedOptions with outputDir := "./out//lib/..", suffix := "" }

/-- Two sources with different endings collide, in the directory that is left when the other is
cleaned. -/
theorem outputs_collide_iff_endings :
    looseOptions.outputDir ≠ "" ∧ '/' ∉ looseOptions.suffix.toList ∧
      (looseOptions.suffix = "" ∨ ".ts".toList <:+ looseOptions.suffix.toList) ∧
      Path.dir (outputPath "a/e.d.ts" looseOptions.outputDir looseOptions.suffix) = "out" ∧
      ∃ f, looseOptions.checkCollisions ["a/e.d.ts", "c.ts", "b//e.tsx"] = .error f := by
  have hdir : looseOptions.outputDir ≠ "" := by decide
  have hslash : '/' ∉ looseOptions.suffix.toList := by decide
  obtain ⟨hdirectory, hcollision, hstem, -⟩ := outputs_collide_iff hdir hslash (.inl rfl)
  have hclean : clean looseOptions.outputDir = "out" := by decide +kernel
  refine ⟨hdir, hslash, .inl rfl, (hdirectory _).trans hclean, (hcollision _).2 ?_⟩
  have hbase : base "a/e.d.ts" = "e.d.ts" ∧ base "b//e.tsx" = "e.tsx" := by decide +kernel
  refine ⟨"a/e.d.ts", by simp, "b//e.tsx", by simp, by decide,
    (hstem _ _ ?_ ?_).2 ⟨"e".toList, ?_, ?_⟩⟩
  · rw [hbase.1]; decide
  · rw [hbase.2]; decide
  · rw [hbase.1]; exact stem_iff.2 (by decide +kernel)
  · rw [hbase.2]; exact stem_iff.2 (by decide +kernel)

end Exemplar.Pass
