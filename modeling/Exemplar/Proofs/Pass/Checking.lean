import Exemplar.Pass.Check
import Exemplar.Pass.Write
import Exemplar.Proofs.Disk.Writing
import Mathlib.Data.List.Forall2
import Mathlib.Data.List.TakeWhile
import Mathlib.Data.Prod.Basic

/-!
# Checking what was generated

Writing the builders of units and checking them are two walks over the same results. What is
written for one unit is not overwritten for another: output files are told apart by their names,
and two units with one output are refused beforehand. So a check that follows finds every file
that was written as it was written.

It finds every other output as it was, too, and this is where generating and checking part.
Nothing is written for a unit without builders, and nothing is removed either, so a file that
was left behind for it stays, and the check takes it for out of date.

Two outputs may be written differently and still lead to one place, for instance by different
ways up from the directory. It is shown that this cannot happen for outputs of different units
in one directory: the last name of the place is the last name of the output, and from that name
and the directory the output is known (`agree_of_processUnits`). This needs the suffix to be a
part of a name, with no slash in it (`PlainSuffix`).
-/

namespace Exemplar.Pass

open Exemplar.Path

variable {d d' : Disk} {cwd : String} {o : Options} {cancelled : Bool} {units : List String}

/-! ## Names of output files

An output file is named after its unit: the last name of the path of the unit, without its
ending, and the suffix behind it. -/

/-- A suffix that is no path of its own. -/
structure PlainSuffix (suffix : String) : Prop where
  /-- It has no slash. -/
  slash : '/' ∉ suffix.toList
  /-- It does not name the directory itself. -/
  ne_here : suffix ≠ "."
  /-- It does not name the directory above. -/
  ne_above : suffix ≠ ".."

/-- The name of the output file of a unit. -/
def outputName (unit suffix : String) : String :=
  String.ofList (stem (baseChars unit.toList)) ++ effectiveSuffix suffix

/-- The output lies in the output directory, under its name. -/
theorem outputPath_eq (unit dir suffix : String) :
    outputPath unit dir suffix = join dir (outputName unit suffix) := rfl

/-- There is always a suffix. -/
theorem effectiveSuffix_ne_nil (suffix : String) : (effectiveSuffix suffix).toList ≠ [] := by
  unfold effectiveSuffix
  split
  · decide
  · rename_i h
    intro hnil
    exact h (String.isEmpty_iff.2 (String.toList_eq_nil_iff.1 hnil))

/-- The suffix that is used if none is given is no path either. -/
theorem PlainSuffix.effective {suffix : String} (h : PlainSuffix suffix) :
    PlainSuffix (effectiveSuffix suffix) := by
  unfold effectiveSuffix
  split
  · exact ⟨by decide, by decide, by decide⟩
  · exact h

/-- Taking an ending off adds nothing. -/
theorem stem_subset (name : List Char) : stem name ⊆ name := by
  unfold stem
  cases h : sourceEndings.findSome? (withoutEnding? · name) with
  | none => exact List.Subset.refl _
  | some s =>
    obtain ⟨ending, -, he⟩ := List.exists_of_findSome?_eq_some h
    unfold withoutEnding? at he
    split at he
    · cases he
      exact List.take_subset _ _
    · cases he

/-- The name of an output file is a name, if the path of the unit has one. -/
theorem isName_outputName {unit suffix : String} (hs : PlainSuffix suffix)
    (hu : '/' ∉ baseChars unit.toList) : IsName (outputName unit suffix).toList := by
  have heff := hs.effective
  have hhere : (effectiveSuffix suffix).toList ≠ here := fun h =>
    heff.ne_here (String.toList_inj.1 h)
  have habove : (effectiveSuffix suffix).toList ≠ above := fun h =>
    heff.ne_above (String.toList_inj.1 h)
  rw [outputName, String.toList_append, String.toList_ofList]
  cases he : (effectiveSuffix suffix).toList with
  | nil => exact absurd he (effectiveSuffix_ne_nil suffix)
  | cons c rest =>
    rw [he] at hhere habove
    refine ⟨by simp, fun h => ?_, fun h => ?_, fun h => ?_⟩
    · rcases List.mem_append.1 h with h | h
      · exact hu (stem_subset _ h)
      · exact heff.slash (he ▸ h)
    -- what is too short for a stem and a suffix is a suffix
    · rcases List.append_eq_singleton_iff.1 h with ⟨-, h⟩ | ⟨-, h⟩
      · exact hhere h
      · cases h
    · rcases List.append_eq_cons_iff.1 h with ⟨-, h⟩ | ⟨s, -, h⟩
      · exact habove h
      · rcases List.append_eq_singleton_iff.1 h.symm with ⟨-, h⟩ | ⟨-, h⟩
        · exact hhere h
        · cases h

/-- A path that is not made of slashes has a last name without a slash. -/
theorem slash_notMem_baseChars {p : List Char} (h : p = [] ∨ trimSlashes p ≠ []) :
    '/' ∉ baseChars p := by
  unfold baseChars
  split
  · decide
  · rename_i hp
    cases ht : trimSlashes p with
    | nil =>
      rw [ht] at h
      exact absurd (h.resolve_right fun h => h rfl) fun hnil => hp (by rw [hnil]; rfl)
    | cons c rest =>
      dsimp only
      rw [List.getLast?_eq_getLast_of_ne_nil (segments_ne_nil _), Option.getD_some]
      exact slash_notMem_segments (List.getLast_mem _)

/-- Slashes alone lead to the root. -/
theorem walk_of_slashes {p : List Char} (h : ∀ c ∈ p, c = '/') :
    d.walk [] ((segments p).map String.ofList) = .ok [] := by
  induction p with
  | nil => rfl
  | cons c rest ih =>
    obtain rfl := h c List.mem_cons_self
    show d.walk [] ("" :: (segments rest).map String.ofList) = _
    rw [Disk.walk_cons]
    exact ih fun c hc => h c (List.mem_cons_of_mem _ hc)

/-- The path of a file that can be read has a last name without a slash. -/
theorem slash_notMem_of_read {path : String} {content : Text}
    (h : d.read cwd path = .ok content) :
    '/' ∉ baseChars path.toList := by
  refine slash_notMem_baseChars (Classical.or_iff_not_imp_left.2 fun hne htrim => ?_)
  -- otherwise the path would lead to the root, which is no file
  have hall : ∀ c ∈ path.toList, c = '/' := by
    rw [trimSlashes, List.reverse_eq_nil_iff, List.dropWhile_eq_nil_iff] at htrim
    exact fun c hc => by simpa using htrim c (List.mem_reverse.2 hc)
  have habs : isAbsolute path = true := by
    obtain ⟨c, rest, hp⟩ := List.exists_cons_of_ne_nil hne
    have hc := hall c (hp ▸ List.mem_cons_self)
    rw [isAbsolute, isRooted, hp, hc]
    rfl
  have hempty : path.isEmpty = false := by
    cases he : path.isEmpty with
    | false => rfl
    | true => exact absurd (by rw [String.isEmpty_iff.1 he]; rfl) hne
  have hlocate : d.locate cwd path = .ok [] := by
    rw [Disk.locate, hempty, if_neg Bool.false_ne_true, if_pos habs]
    exact walk_of_slashes hall
  rw [Disk.read_eq_ok, Disk.stat_of_locate hlocate] at h
  cases h

/-! ## Units that share an output

The check for collisions keeps a table of outputs with their units. Two units with one output
would meet in it. -/

/-- A known output belongs to the only unit with that output. -/
theorem eq_of_collisionAfter {output : String → String} {seen : List (String × String)}
    {units : List String} (h : collisionAfter output seen units = none) {u v : String}
    (hu : u ∈ units) (hv : seen.lookup (output u) = some v) : v = u := by
  induction units generalizing seen with
  | nil => exact absurd hu List.not_mem_nil
  | cons unit rest ih =>
    rw [collisionAfter] at h
    cases hseen : seen.lookup (output unit) with
    | some other =>
      rw [hseen] at h
      dsimp only at h
      split at h
      · -- The output is known, so its unit is the same one.
        rename_i heq
        rcases List.mem_cons.1 hu with rfl | hu
        · rw [hseen] at hv
          cases hv
          exact beq_iff_eq.1 heq
        · exact ih h hu hv
      · cases h
    | none =>
      rw [hseen] at h
      rcases List.mem_cons.1 hu with rfl | hu
      · rw [hseen] at hv; cases hv
      · -- A new output is put in front of the table and hides no other.
        refine ih h hu ?_
        rw [List.lookup_cons]
        split
        · rename_i heq
          rw [beq_iff_eq.1 heq, hseen] at hv
          cases hv
        · exact hv

/-- **Units that pass the check for collisions have outputs of their own.** -/
theorem eq_of_output_eq {output : String → String} {seen : List (String × String)}
    {units : List String} (h : collisionAfter output seen units = none) {u v : String}
    (hu : u ∈ units) (hv : v ∈ units) (heq : output u = output v) : u = v := by
  induction units generalizing seen with
  | nil => exact absurd hu List.not_mem_nil
  | cons unit rest ih =>
    -- the output of the first unit is known afterwards, with that unit
    obtain ⟨seen', hrest, hknown⟩ : ∃ seen', collisionAfter output seen' rest = none ∧
        seen'.lookup (output unit) = some unit := by
      rw [collisionAfter] at h
      cases hseen : seen.lookup (output unit) with
      | some other =>
        rw [hseen] at h
        dsimp only at h
        split at h
        · rename_i hother
          exact ⟨seen, h, by rw [hseen, beq_iff_eq.1 hother]⟩
        · cases h
      | none =>
        rw [hseen] at h
        exact ⟨_, h, by rw [List.lookup_cons, beq_self_eq_true]⟩
    rcases List.mem_cons.1 hu with rfl | hu' <;> rcases List.mem_cons.1 hv with rfl | hv'
    · rfl
    · exact eq_of_collisionAfter hrest hv' (heq ▸ hknown)
    · exact (eq_of_collisionAfter hrest hu' (heq ▸ hknown)).symm
    · exact ih hrest hu' hv'

/-! ## Passes

Nothing is written while units are passed, and a pass looks at one file. -/

/-- The first pass, and then the others if it succeeds. -/
theorem passes_cons (d : Disk) (cwd : String) (o : Options) (cancelled : Bool) (u : String)
    (rest : List String) :
    passes d cwd o cancelled (u :: rest) =
      (processUnit d cwd o cancelled u).bind fun r =>
      (passes d cwd o cancelled rest).map (r :: ·) := by
  unfold passes
  rw [List.mapM_cons]
  cases processUnit d cwd o cancelled u with
  | error f => rfl
  | ok r =>
    dsimp only [Except.bind]
    cases rest.mapM (processUnit d cwd o cancelled) <;> rfl

/-- The passes that succeed over units, one for each. -/
theorem forall₂_of_passes {results : List UnitResult}
    (h : passes d cwd o cancelled units = .ok results) :
    List.Forall₂ (fun u r => processUnit d cwd o cancelled u = .ok r) units results := by
  induction units generalizing results with
  | nil => cases h; exact .nil
  | cons u rest ih =>
    rw [passes_cons] at h
    cases hu : processUnit d cwd o cancelled u with
    | error f => rw [hu] at h; cases h
    | ok r =>
      rw [hu] at h
      cases hrest : passes d cwd o cancelled rest with
      | error f => rw [Except.bind, hrest] at h; cases h
      | ok rs =>
        rw [Except.bind, hrest] at h
        cases h
        exact .cons hu (ih hrest)

/-- A pass sees nothing of the file system but the file of its unit. -/
theorem processUnit_congr {unit : String} (h : d'.read cwd unit = d.read cwd unit) :
    processUnit d' cwd o cancelled unit = processUnit d cwd o cancelled unit := by
  unfold processUnit loadUnit
  rw [h]

/-- So processing sees nothing but the files of its units. -/
theorem processUnits_congr (h : ∀ u ∈ units, d'.read cwd u = d.read cwd u) :
    processUnits d' cwd o cancelled units = processUnits d cwd o cancelled units := by
  have hpasses : passes d' cwd o cancelled units = passes d cwd o cancelled units := by
    induction units with
    | nil => rfl
    | cons u rest ih =>
      rw [passes_cons, passes_cons, processUnit_congr (h u List.mem_cons_self),
        ih fun v hv => h v (List.mem_cons_of_mem _ hv)]
  unfold processUnits
  rw [hpasses]

/-- What a pass that succeeds yields. -/
theorem processUnit_eq_ok {unit : String} {r : UnitResult}
    (h : processUnit d cwd o cancelled unit = .ok r) :
    (∃ content, d.read cwd unit = .ok content) ∧ r.output = o.output unit := by
  unfold processUnit loadUnit at h
  split at h
  · cases h
  cases hread : d.read cwd unit with
  | error reason => rw [hread] at h; cases h
  | ok content =>
    rw [hread] at h
    refine ⟨⟨content, rfl⟩, ?_⟩
    split at h
    · cases h
    · cases h; rfl

/-- What processing units that succeeds has done: no output belongs to two units, and every unit
has been passed. -/
theorem processUnits_eq_ok {results : List UnitResult} (hdir : o.outputDir ≠ "")
    (h : processUnits d cwd o cancelled units = .ok results) :
    collisionAfter (fun u => outputPath u o.outputDir o.suffix) [] units = none ∧
      List.Forall₂ (fun u r => processUnit d cwd o cancelled u = .ok r) units results := by
  unfold processUnits Options.checkCollisions at h
  rw [if_neg (by simpa using hdir)] at h
  cases hcollision : collisionAfter (fun u => outputPath u o.outputDir o.suffix) [] units with
  | some found => rw [hcollision] at h; cases h
  | none =>
    rw [hcollision] at h
    exact ⟨rfl, forall₂_of_passes h⟩

/-- Results at one place have one source. -/
def Agree (cwd : String) (r r' : UnitResult) : Prop :=
  ∀ {d : Disk} {p : Place}, d.locate cwd r.output = .ok p → d.locate cwd r'.output = .ok p →
    r.source = r'.source

/-- **No two results go to one place**, unless they are the same. -/
theorem agree_of_processUnits {results : List UnitResult} (hdir : o.outputDir ≠ "")
    (hsuffix : PlainSuffix o.suffix) (h : processUnits d cwd o cancelled units = .ok results)
    {r r' : UnitResult} (hr : r ∈ results) (hr' : r' ∈ results) : Agree cwd r r' := by
  obtain ⟨hcollision, hpasses⟩ := processUnits_eq_ok hdir h
  have key : ∀ {r : UnitResult}, r ∈ results → ∃ u ∈ units,
      processUnit d cwd o cancelled u = .ok r := by
    intro r hr
    obtain ⟨i, hi, rfl⟩ := List.getElem_of_mem hr
    have hlen := hpasses.length_eq
    exact ⟨units[i], List.getElem_mem _, hpasses.get (by omega) hi⟩
  obtain ⟨u, hu, hpass⟩ := key hr
  obtain ⟨u', hu', hpass'⟩ := key hr'
  intro d₁ p hp hp'
  obtain ⟨⟨content, hread⟩, hout⟩ := processUnit_eq_ok hpass
  obtain ⟨⟨content', hread'⟩, hout'⟩ := processUnit_eq_ok hpass'
  have houtput : ∀ u, o.output u = outputPath u o.outputDir o.suffix := fun u => by
    rw [Options.output, if_neg (by simpa using hdir)]
  rw [hout, houtput, outputPath_eq] at hp
  rw [hout', houtput, outputPath_eq] at hp'
  -- the place has the names of both outputs
  obtain ⟨parent, rfl⟩ :=
    Disk.locate_join (isName_outputName hsuffix (slash_notMem_of_read hread)) hp
  obtain ⟨parent', heq⟩ :=
    Disk.locate_join (isName_outputName hsuffix (slash_notMem_of_read hread')) hp'
  have hname := (List.cons.inj heq).1
  obtain rfl : u = u' := eq_of_output_eq hcollision hu hu' (by
    rw [outputPath_eq, outputPath_eq, hname])
  rw [hpass] at hpass'
  cases hpass'
  rfl

/-! ## Writing

A write makes directories and sets one place. What was written before at another place is
kept. -/

/-- The source of a result is in its output file. -/
def Written (d : Disk) (cwd : String) (r : UnitResult) : Prop :=
  ∃ p, d.locate cwd r.output = .ok p ∧ d.get? p = some (.file r.source)

/-- **What one write does.** Nothing is written for a result without source. Otherwise the
source is written to its place, and what other places held is kept. -/
theorem writeResult_eq_ok {r : UnitResult} {b : Bool} (h : writeResult d cwd r = (.ok b, d')) :
    (b = false ∧ r.source = [] ∧ d' = d) ∨
      (b = true ∧ d.KeepsDirs d' ∧ ∃ p, d'.locate cwd r.output = .ok p ∧
        d'.get? p = some (.file r.source) ∧
        ∀ q e, q ≠ p → d.get? q = some e → d'.get? q = some e) := by
  unfold writeResult at h
  split at h
  · cases h
  split at h
  · rename_i hsource
    cases h
    exact .inl ⟨rfl, List.isEmpty_iff.1 hsource, rfl⟩
  · dsimp only at h
    cases hmade : d.makeDirs cwd (Path.dir r.output) with
    | error reason => rw [hmade] at h; cases h
    | ok made =>
      rw [hmade] at h
      dsimp only at h
      cases hwrite : made.write cwd r.output r.source with
      | error reason => rw [hwrite] at h; cases h
      | ok written =>
        rw [hwrite] at h
        cases h
        -- Directories are made first, and then one file is set.
        have hkeeps := Disk.keeps_makeDirs hmade
        obtain ⟨p, hlocate, hroot, hdir, rfl⟩ := Disk.write_eq_ok hwrite
        have hdirs := Disk.keepsDirs_set_file r.source hdir
        refine .inr ⟨rfl, fun q hq => hdirs q (hkeeps.keepsDirs q hq), p, hdirs.locate hlocate,
          Disk.get?_set_self _ hroot _, fun q e hne hq => ?_⟩
        rw [Disk.get?_set_of_ne _ hne]
        exact hkeeps q e hq

/-- **A write keeps what was written**, unless another source goes to the same place. -/
theorem Written.of_writeResult {r r' : UnitResult} {b : Bool} (hw : Written d cwd r)
    (hagree : Agree cwd r r') (h : writeResult d cwd r' = (.ok b, d')) : Written d' cwd r := by
  rcases writeResult_eq_ok h with ⟨-, -, rfl⟩ | ⟨-, hdirs, p', hp', hget', hkeep⟩
  · exact hw
  obtain ⟨p, hp, hget⟩ := hw
  refine ⟨p, hdirs.locate hp, ?_⟩
  by_cases hne : p = p'
  · rw [hne, hget', hagree (hdirs.locate hp) (hne ▸ hp')]
  · exact hkeep p _ hne hget

/-- One round of writing. -/
theorem writeAll_cons_eq_ok {r : UnitResult} {rest : List UnitResult} {written : List Bool}
    (h : writeAll cwd d (r :: rest) = (.ok written, d')) :
    ∃ b d₁ more, writeResult d cwd r = (.ok b, d₁) ∧ writeAll cwd d₁ rest = (.ok more, d') := by
  rw [writeAll] at h
  cases hr : writeResult d cwd r with
  | mk outcome d₁ =>
    rw [hr] at h
    cases outcome with
    | error f => cases h
    | ok b =>
      dsimp only at h
      cases hrest : writeAll cwd d₁ rest with
      | mk outcomes last =>
        rw [hrest] at h
        cases outcomes with
        | error f => cases h
        | ok more =>
          cases h
          exact ⟨b, d₁, more, rfl, hrest⟩

/-- What was written is kept by all writes that follow. -/
theorem Written.of_writeAll {r : UnitResult} {rest : List UnitResult} {written : List Bool}
    (hw : Written d cwd r) (hagree : ∀ r' ∈ rest, Agree cwd r r')
    (h : writeAll cwd d rest = (.ok written, d')) : Written d' cwd r := by
  induction rest generalizing d written with
  | nil => cases h; exact hw
  | cons r' rest ih =>
    obtain ⟨b, d₁, more, hr, hrest⟩ := writeAll_cons_eq_ok h
    exact ih (hw.of_writeResult (hagree r' List.mem_cons_self) hr)
      (fun r'' hr'' => hagree r'' (List.mem_cons_of_mem _ hr'')) hrest

/-- **All sources are in their output files when all of them have been written.** Each is
written in its round and kept in those behind it. -/
theorem written_of_writeAll {results : List UnitResult} {written : List Bool}
    (hagree : ∀ r ∈ results, ∀ r' ∈ results, Agree cwd r r')
    (h : writeAll cwd d results = (.ok written, d')) :
    ∀ r ∈ results, r.source ≠ [] → Written d' cwd r := by
  induction results generalizing d written with
  | nil => exact fun r hr => absurd hr List.not_mem_nil
  | cons r₀ rest ih =>
    obtain ⟨b, d₁, more, hr₀, hrest⟩ := writeAll_cons_eq_ok h
    intro r hr hsource
    rcases List.mem_cons.1 hr with rfl | hr
    · -- written in this round, and kept in those that follow
      have hw : Written d₁ cwd r := by
        rcases writeResult_eq_ok hr₀ with ⟨-, hnil, -⟩ | ⟨-, -, p, hp, hget, -⟩
        · exact absurd hnil hsource
        · exact ⟨p, hp, hget⟩
      exact hw.of_writeAll
        (fun r' hr' => hagree r List.mem_cons_self r' (List.mem_cons_of_mem _ hr')) hrest
    · exact ih (fun r hr r' hr' =>
        hagree r (List.mem_cons_of_mem _ hr) r' (List.mem_cons_of_mem _ hr')) hrest r hr hsource

/-! ## Checking

A result is compared with what is in its output file. For one without source there must be no
file, or an empty one. -/

/-- A file that was written is up to date. -/
theorem Written.isStale {r : UnitResult} (h : Written d cwd r) :
    isStale d cwd r = .ok false := by
  obtain ⟨p, hp, hget⟩ := h
  have hstat : d.stat cwd r.output = .ok (.file r.source) := Disk.stat_eq_ok_iff.2 ⟨p, hp, hget⟩
  rw [Pass.isStale, hstat, Disk.read_of_get? hp hget]
  dsimp only
  rw [bne_self_eq_false]

/-- Nothing is left of an output file, or nothing in it. -/
def Cleared (d : Disk) (cwd : String) (r : UnitResult) : Prop :=
  d.stat cwd r.output = .error .missing ∨ d.read cwd r.output = .ok []

/-- A result without source is up to date where nothing is left of its output. -/
theorem isStale_iff_cleared {r : UnitResult} (hr : r.source = []) :
    isStale d cwd r = .ok false ↔ Cleared d cwd r := by
  unfold Pass.isStale Cleared
  rw [hr]
  cases hstat : d.stat cwd r.output with
  | error refusal =>
    cases refusal with
    | missing => simp
    | _ =>
      have hread : ∃ reason, d.read cwd r.output = .error reason := by
        rw [Disk.read, hstat]
        exact ⟨_, rfl⟩
      obtain ⟨reason, hread⟩ := hread
      simp [hread]
  | ok e =>
    cases hread : d.read cwd r.output with
    | error reason => simp
    | ok content => simp

/-- Nothing is out of date if each result is up to date. -/
theorem staleOnes_eq_nil_iff {results : List UnitResult} :
    staleOnes d cwd results = .ok [] ↔ ∀ r ∈ results, isStale d cwd r = .ok false := by
  induction results with
  | nil => exact ⟨fun _ r hr => absurd hr List.not_mem_nil, fun _ => rfl⟩
  | cons r rest ih =>
    rw [List.forall_mem_cons, ← ih, staleOnes]
    cases hr : isStale d cwd r with
    | error f => exact ⟨fun h => (by cases h), fun h => (by cases h.1)⟩
    | ok stale =>
      cases hrest : staleOnes d cwd rest with
      | error f => exact ⟨fun h => (by cases h), fun h => (by cases h.2)⟩
      | ok more =>
        cases stale with
        | false => exact ⟨fun h => ⟨rfl, h⟩, fun h => h.2⟩
        | true => exact ⟨fun h => (by cases h), fun h => (by cases h.1)⟩

/-- A check is passed exactly if no result is out of date. -/
theorem upToDate_check_iff {results : List UnitResult} (hdir : o.outputDir ≠ "")
    (h : processUnits d cwd o cancelled units = .ok results) :
    (∃ c, check d cwd o cancelled units = .ok c ∧ c.upToDate = true) ↔
      ∀ r ∈ results, isStale d cwd r = .ok false := by
  have hcheck : check d cwd o cancelled units = compare d cwd results := by
    unfold check
    rw [if_neg (by simpa using hdir), h]
    rfl
  rw [hcheck, ← staleOnes_eq_nil_iff, compare]
  cases hs : staleOnes d cwd results with
  | error f => exact ⟨fun ⟨c, hc, _⟩ => (by cases hc), fun h => (by cases h)⟩
  | ok stale =>
    constructor
    · rintro ⟨c, hc, hup⟩
      cases hc
      rw [CheckResult.upToDate, List.isEmpty_iff] at hup
      rw [show stale = [] from hup]
    · intro hnil
      cases hnil
      exact ⟨⟨[], results.length⟩, rfl, rfl⟩

/-- **A check after generating is passed exactly where nothing was left behind.** If generating
succeeds, with a suffix that is no path of its own and without overwriting a unit, then the same
check finds every file up to date just if each unit without builders has no output file, or an
empty one. Processing gives the same results again, since the files of the units are as they
were. Those with a source are up to date, as they have been written. So the others decide. -/
theorem upToDate_check_generate_iff (d d' : Disk) (cwd : String) (o : Options) (cancelled : Bool)
    (units : List String) (written : List Bool) (hdir : o.outputDir ≠ "")
    (hsuffix : PlainSuffix o.suffix) (h : generate d cwd o cancelled units = (.ok written, d'))
    (hunits : ∀ u ∈ units, d'.read cwd u = d.read cwd u) :
    ∃ results, processUnits d' cwd o cancelled units = .ok results ∧
      ((∃ c, check d' cwd o cancelled units = .ok c ∧ c.upToDate = true) ↔
        ∀ r ∈ results, r.source = [] → Cleared d' cwd r) := by
  unfold generate at h
  cases hresults : processUnits d cwd o cancelled units with
  | error f => rw [hresults] at h; cases h
  | ok results =>
    rw [hresults] at h
    have hresults' : processUnits d' cwd o cancelled units = .ok results := by
      rw [processUnits_congr hunits, hresults]
    refine ⟨results, hresults', ?_⟩
    rw [upToDate_check_iff hdir hresults']
    have hwritten := written_of_writeAll
      (fun r hr r' hr' => agree_of_processUnits hdir hsuffix hresults hr hr') h
    constructor
    · intro hstale r hr hsource
      exact (isStale_iff_cleared hsource).1 (hstale r hr)
    · intro hcleared r hr
      by_cases hsource : r.source = []
      · exact (isStale_iff_cleared hsource).2 (hcleared r hr hsource)
      · exact (hwritten r hr hsource).isStale

/-- Options that differ from the usual ones in a header and a directory for the output. -/
def headedOptions : Options :=
  ⟨.empty, ⟨.sampling "", Text.ofString "// generated"⟩, "out", "", 0⟩

/-- A directory with an interface in it. -/
def freshDisk : Disk :=
  ⟨[(["a.ts", "w"], .file (Text.ofString "export interface A \x7b a: string \x7d")),
    (["w"], .directory)]⟩

/-- The builder of an interface is up to date once it was generated. -/
theorem upToDate_check_generate_interface :
    ∃ d', generate freshDisk "/w" headedOptions false ["a.ts"] = (.ok [true], d') ∧
      ∃ c, check d' "/w" headedOptions false ["a.ts"] = .ok c ∧ c.upToDate = true := by
  -- the unit stays, there are builders, and a header comes before them
  obtain ⟨hwritten, hunits, hnone⟩ :
      (generate freshDisk "/w" headedOptions false ["a.ts"]).1 = .ok [true] ∧
      (∀ u ∈ ["a.ts"], (generate freshDisk "/w" headedOptions false ["a.ts"]).2.read "/w" u =
        freshDisk.read "/w" u) ∧
      (processUnits (generate freshDisk "/w" headedOptions false ["a.ts"]).2 "/w"
        headedOptions false ["a.ts"]).map (·.any (·.source.isEmpty)) = .ok false := by
    decide +kernel
  have h := Prod.fst_eq_iff.1 hwritten
  refine ⟨_, h, ?_⟩
  obtain ⟨results, hresults, hiff⟩ := upToDate_check_generate_iff freshDisk _ "/w" headedOptions
    false ["a.ts"] [true] (by decide) ⟨by decide, by decide, by decide⟩ h hunits
  refine hiff.2 fun r hr hsource => ?_
  rw [hresults] at hnone
  exact absurd (List.isEmpty_iff.2 hsource) (List.any_eq_false.1 (Except.ok.inj hnone) r hr)

/-- A directory with a class in it, and with a builder from a time when it was an interface. -/
def leftoverDisk : Disk :=
  ⟨[(["e.ts", "w"], .file (Text.ofString "export class C \x7b\x7d")),
    (["e.builder.ts", "out", "w"], .file (Text.ofString "old")),
    (["out", "w"], .directory), (["w"], .directory)]⟩

/-- Generating does not make every check pass: what is left from a time when a unit had builders
is neither overwritten nor removed. -/
theorem not_upToDate_check_generate :
    ¬ ∀ (d d' : Disk) (cwd : String) (o : Options) (cancelled : Bool) (units : List String)
      (written : List Bool), o.outputDir ≠ "" →
      generate d cwd o cancelled units = (.ok written, d') →
      ∃ c, check d' cwd o cancelled units = .ok c ∧ c.upToDate = true := by
  intro hall
  obtain ⟨hwritten, hstale⟩ :
      (generate leftoverDisk "/w" headedOptions false ["e.ts"]).1 = .ok [false] ∧
      (check (generate leftoverDisk "/w" headedOptions false ["e.ts"]).2 "/w"
        headedOptions false ["e.ts"]).map CheckResult.upToDate = .ok false := by
    decide +kernel
  obtain ⟨c, hc, hup⟩ :=
    hall leftoverDisk _ "/w" headedOptions false ["e.ts"] [false] (by decide)
    (Prod.fst_eq_iff.1 hwritten)
  rw [hc] at hstale
  exact Bool.false_ne_true ((Except.ok.inj hstale).symm.trans hup)

end Exemplar.Pass
