import Exemplar.Proofs.Builder.Filling
import Exemplar.Proofs.Disk.Storing
import Exemplar.Proofs.Pass.Failing

/-!
# The order of units

Generating reads all units before it writes anything, so what it writes is the same in every
order of the units. Whether it can be written, and what is there in the end, does not depend on
the order either, as long as no file is written twice: there has to be room for every file, and
none may be on the way to another (`Placeable`); then every file is at its place, with
directories on its way.

That no file is written twice is what the check for collisions is for, but it compares paths.
Two paths that differ may lead to one place: one that goes up from the root stays at the root.
Then the last unit wins.

Whether files can be written is a question that the writing of one changes for the others, so an
induction on the results has to say what is left of the question once a result is written. There
is room for the others exactly if there was before and neither is in the way of the other, which
is what `Placeable` says of all pairs (`placeable_cons_iff`). As it does not mention an order,
neither does the outcome.

All outputs go to one directory, and so one starts alike for all of them (`Homed`). This
excludes that a directory made for one output is where another starts from.
-/

namespace Exemplar

/-- Every place holds the same in both. -/
def Disk.Alike (d d' : Disk) : Prop := ∀ p, d.get? p = d'.get? p

namespace Pass

open Exemplar.Disk (destination passed standing Room Stored IsClean)

variable {d d' : Disk} {cwd dir : String} {o : Options} {cancelled : Bool}
  {units units' : List String}
  {r : UnitResult} {results results' : List UnitResult}

/-! ## Outputs of one directory

An output path is joined to the output directory, so it is clean, and absolute if the directory
is. -/

/-- A clean path that is followed from where a directory is. -/
structure Homed (cwd dir path : String) : Prop where
  /-- The path is clean. -/
  clean : IsClean path
  /-- One starts as for the directory. -/
  start : standing cwd path = standing cwd dir

/-- The output path of a unit, where an output directory is given. -/
theorem output_eq (hdir : o.outputDir ≠ "") (u : String) :
    o.output u = Path.join o.outputDir (outputName u o.suffix) := by
  rw [Options.output, if_neg (by simpa using hdir), outputPath_eq]

/-- **All outputs go to the output directory.** -/
theorem homed_output (hdir : o.outputDir ≠ "") (u : String) :
    Homed cwd o.outputDir (o.output u) := by
  rw [output_eq hdir]
  refine ⟨Disk.isClean_join hdir _, ?_⟩
  rw [standing, standing, Disk.base, Disk.base, Disk.lead, Disk.lead, Disk.isAbsolute_join hdir]

/-- What a pass over a unit results in is put there too. -/
theorem homed_of_processUnit (hdir : o.outputDir ≠ "") {u : String}
    (h : processUnit d cwd o cancelled u = .ok r) : Homed cwd o.outputDir r.output :=
  (processUnit_eq_ok h).2 ▸ homed_output hdir u

/-! ## Writing results

A result without builders writes nothing. One with builders is stored where its output path
leads. -/

/-- A result without builders leaves the disk as it is. -/
theorem writeResult_of_source_nil (h : r.source = []) (hclean : IsClean r.output) :
    writeResult d cwd r = (.ok false, d) := by
  rw [writeResult, if_neg (by simpa using hclean.ne_empty), if_pos (List.isEmpty_iff.2 h)]

/-- **A result with builders can be written exactly if there is room for it**, and is stored
then. -/
theorem writeResult_spec (d : Disk) (cwd : String) (hclean : IsClean r.output)
    (hsource : r.source ≠ []) :
    (∀ b d', writeResult d cwd r = (.ok b, d') →
      Room d cwd r.output ∧ Stored d d' cwd r.output r.source) ∧
    (Room d cwd r.output → ∃ d', writeResult d cwd r = (.ok true, d')) := by
  unfold writeResult
  rw [if_neg (by simpa using hclean.ne_empty), if_neg (by simpa using hsource)]
  dsimp only
  constructor
  · intro b d' h
    cases hmade : d.makeDirs cwd (Path.dir r.output) with
    | error reason => rw [hmade] at h; cases h
    | ok made =>
      rw [hmade] at h
      dsimp only at h
      cases hwrite : made.write cwd r.output r.source with
      | error reason => rw [hwrite] at h; cases h
      | ok written =>
        rw [hwrite] at h
        cases h
        exact Disk.stored_of_write hclean hmade hwrite
  · intro hroom
    obtain ⟨made, d', hmade, hwrite⟩ := hroom.exists_write hclean r.source
    exact ⟨d', by rw [hmade]; dsimp only; rw [hwrite]⟩

/-- The results can be placed: there is room for each that has builders, and none of them is on
the way to another. -/
def Placeable (d : Disk) (cwd : String) (results : List UnitResult) : Prop :=
  ∀ r ∈ results, r.source ≠ [] → Room d cwd r.output ∧
    ∀ r' ∈ results, r'.source ≠ [] → destination cwd r.output ∉ passed cwd r'.output

/-- What writing a first result leaves to be placed. -/
theorem placeable_cons_iff (hhomed : ∀ r' ∈ r :: results, Homed cwd dir r'.output)
    (hsource : r.source ≠ [])
    (hroom : Room d cwd r.output) (hstored : Stored d d' cwd r.output r.source) :
    Placeable d cwd (r :: results) ↔ Placeable d' cwd results := by
  have hroom' : ∀ r' ∈ results, Room d' cwd r'.output ↔ Room d cwd r'.output ∧
      destination cwd r.output ∉ passed cwd r'.output ∧
      destination cwd r'.output ∉ passed cwd r.output := fun r' hr' =>
    hstored.room_iff hroom <| by
      rw [(hhomed r' (List.mem_cons_of_mem _ hr')).start, (hhomed r List.mem_cons_self).start]
  constructor
  · intro h r' hr' hsource'
    obtain ⟨hr, hapart⟩ := h r' (List.mem_cons_of_mem _ hr') hsource'
    refine ⟨(hroom' r' hr').2 ⟨hr, ?_, hapart r List.mem_cons_self hsource⟩,
      fun r'' hr'' => hapart r'' (List.mem_cons_of_mem _ hr'')⟩
    exact (h r List.mem_cons_self hsource).2 r' (List.mem_cons_of_mem _ hr') hsource'
  · intro h
    have hrest : ∀ r' ∈ results, r'.source ≠ [] → Room d cwd r'.output ∧
        destination cwd r.output ∉ passed cwd r'.output ∧
        destination cwd r'.output ∉ passed cwd r.output := fun r' hr' hsource' =>
      (hroom' r' hr').1 (h r' hr' hsource').1
    refine List.forall_mem_cons.2 ⟨fun _ => ⟨hroom, List.forall_mem_cons.2
      ⟨fun _ => hroom.apart, fun r' hr' hsource' => (hrest r' hr' hsource').2.1⟩⟩,
      fun r' hr' hsource' => ⟨(hrest r' hr' hsource').1, List.forall_mem_cons.2
        ⟨fun _ => (hrest r' hr' hsource').2.2, (h r' hr' hsource').2⟩⟩⟩

/-- A result without builders needs no room. -/
theorem placeable_cons_of_source_nil (hsource : r.source = []) :
    Placeable d cwd (r :: results) ↔ Placeable d cwd results := by
  constructor
  · intro h r' hr' hsource'
    obtain ⟨hroom, hapart⟩ := h r' (List.mem_cons_of_mem _ hr') hsource'
    exact ⟨hroom, fun r'' hr'' => hapart r'' (List.mem_cons_of_mem _ hr'')⟩
  · intro h
    exact List.forall_mem_cons.2 ⟨fun hne => absurd hsource hne, fun r' hr' hsource' =>
      ⟨(h r' hr' hsource').1, List.forall_mem_cons.2 ⟨fun hne => absurd hsource hne,
        (h r' hr' hsource').2⟩⟩⟩

/-- If the first result was written, writing all is writing the others. -/
theorem writeAll_cons_of_ok {b : Bool} {rest : List UnitResult}
    (h : writeResult d cwd r = (.ok b, d')) :
    (∃ written last, writeAll cwd d (r :: rest) = (.ok written, last)) ↔
      ∃ written last, writeAll cwd d' rest = (.ok written, last) := by
  constructor
  · rintro ⟨written, last, hall⟩
    obtain ⟨b', d₁, more, hr, hrest⟩ := writeAll_cons_eq_ok hall
    rw [h] at hr
    cases hr
    exact ⟨more, last, hrest⟩
  · rintro ⟨more, last, hrest⟩
    exact ⟨b :: more, last, by rw [writeAll, h]; dsimp only; rw [hrest]⟩

/-- **Results can be written exactly if they can be placed.** The order does not matter. -/
theorem exists_writeAll_iff (hhomed : ∀ r ∈ results, Homed cwd dir r.output) :
    (∃ written d', writeAll cwd d results = (.ok written, d')) ↔ Placeable d cwd results := by
  induction results generalizing d with
  | nil => exact ⟨fun _ r hr => absurd hr List.not_mem_nil, fun _ => ⟨[], d, rfl⟩⟩
  | cons r rest ih =>
    have hrest := fun r' hr' => hhomed r' (List.mem_cons_of_mem r hr')
    have hclean := (hhomed r List.mem_cons_self).clean
    -- The first result is written if there is room for it, and then the question is asked of
    -- the others.
    by_cases hsource : r.source = []
    · rw [writeAll_cons_of_ok (writeResult_of_source_nil hsource hclean), ih hrest,
        placeable_cons_of_source_nil hsource]
    · obtain ⟨hsound, hcomplete⟩ := writeResult_spec d cwd hclean hsource
      constructor
      · rintro ⟨written, last, h⟩
        obtain ⟨b, d₁, more, hr, hmore⟩ := writeAll_cons_eq_ok h
        obtain ⟨hroom, hstored⟩ := hsound b d₁ hr
        exact (placeable_cons_iff hhomed hsource hroom hstored).2
          ((ih hrest).1 ⟨more, last, hmore⟩)
      · intro h
        have hroom := (h r List.mem_cons_self hsource).1
        obtain ⟨d₁, hr⟩ := hcomplete hroom
        rw [writeAll_cons_of_ok hr, ih hrest]
        exact (placeable_cons_iff hhomed hsource hroom (hsound true d₁ hr).2).1 h

/-- What results that were written leave: each with builders is at its place, unless another
goes there too, its way consists of directories, and nothing else has changed. -/
structure AllStored (d d' : Disk) (cwd : String) (results : List UnitResult) : Prop where
  /-- The builders are at their places. -/
  file : ∀ r ∈ results, r.source ≠ [] →
    (∀ r' ∈ results, r'.source ≠ [] → destination cwd r'.output = destination cwd r.output →
      r'.source = r.source) → d'.get? (destination cwd r.output) = some (.file r.source)
  /-- The places on the ways are directories. -/
  directory : ∀ r ∈ results, r.source ≠ [] →
    ∀ q ∈ passed cwd r.output, d'.get? q = some .directory
  /-- Every other place is as it was. -/
  kept : ∀ q, (∀ r ∈ results, r.source ≠ [] →
    q ≠ destination cwd r.output ∧ q ∉ passed cwd r.output) → d'.get? q = d.get? q

/-- **Results that were written are stored**, all of them. -/
theorem allStored_of_writeAll
    (hhomed : ∀ r ∈ results, Homed cwd dir r.output) {written : List Bool}
    (h : writeAll cwd d results = (.ok written, d')) : AllStored d d' cwd results := by
  have hplaceable := (exists_writeAll_iff hhomed).1 ⟨written, d', h⟩
  induction results generalizing d written with
  | nil =>
    cases h
    exact ⟨fun r hr => absurd hr List.not_mem_nil,
      fun r hr => absurd hr List.not_mem_nil, fun _ _ => rfl⟩
  | cons r rest ih =>
    have hclean := (hhomed r List.mem_cons_self).clean
    have hrest := fun r' hr' => hhomed r' (List.mem_cons_of_mem r hr')
    obtain ⟨b, d₁, more, hr, hmore⟩ := writeAll_cons_eq_ok h
    have hall := ih hrest hmore ((exists_writeAll_iff hrest).1 ⟨more, d', hmore⟩)
    by_cases hsource : r.source = []
    · rw [writeResult_of_source_nil hsource hclean] at hr
      cases hr
      exact ⟨List.forall_mem_cons.2 ⟨fun hne => absurd hsource hne, fun r' hr' hsource' hsame =>
          hall.file r' hr' hsource' fun r'' hr'' => hsame r'' (List.mem_cons_of_mem _ hr'')⟩,
        List.forall_mem_cons.2 ⟨fun hne => absurd hsource hne, hall.directory⟩,
        fun q hq => hall.kept q fun r' hr' => hq r' (List.mem_cons_of_mem _ hr')⟩
    · have hstored := ((writeResult_spec d cwd hclean hsource).1 b d₁ hr).2
      -- none of the others is on the way to this one, and this one on the way to none of them
      have hway := (hplaceable r List.mem_cons_self hsource).2
      have hother := fun r' hr' hsource' =>
        (hplaceable r' (List.mem_cons_of_mem _ hr') hsource').2 r List.mem_cons_self hsource
      refine ⟨List.forall_mem_cons.2 ⟨fun _ hsame => ?_, fun r' hr' hsource' hsame =>
          hall.file r' hr' hsource' fun r'' hr'' => hsame r'' (List.mem_cons_of_mem _ hr'')⟩,
        List.forall_mem_cons.2 ⟨fun _ q hq => ?_, hall.directory⟩, fun q hq => ?_⟩
      · by_cases hagain : ∃ r' ∈ rest, r'.source ≠ [] ∧
            destination cwd r'.output = destination cwd r.output
        · obtain ⟨r', hr', hsource', heq⟩ := hagain
          have hsame' := hsame r' (List.mem_cons_of_mem _ hr') hsource' heq
          rw [← heq, ← hsame']
          exact hall.file r' hr' hsource' fun r'' hr'' hsource'' heq'' => by
            rw [hsame', hsame r'' (List.mem_cons_of_mem _ hr'') hsource'' (heq''.trans heq)]
        · rw [hall.kept _ fun r' hr' hsource' =>
            ⟨fun heq => hagain ⟨r', hr', hsource', heq.symm⟩,
              hway r' (List.mem_cons_of_mem _ hr') hsource'⟩, hstored.file]
      · by_cases hagain : ∃ r' ∈ rest, r'.source ≠ [] ∧ q ∈ passed cwd r'.output
        · obtain ⟨r', hr', hsource', hq'⟩ := hagain
          exact hall.directory r' hr' hsource' q hq'
        · rw [hall.kept q fun r' hr' hsource' =>
            ⟨fun heq => hother r' hr' hsource' (heq ▸ hq),
              fun hq' => hagain ⟨r', hr', hsource', hq'⟩⟩,
            hstored.directory q hq]
      · rw [hall.kept q fun r' hr' => hq r' (List.mem_cons_of_mem _ hr')]
        obtain ⟨hne, hpassed⟩ := hq r List.mem_cons_self hsource
        exact hstored.kept q hne hpassed

/-- **The same results leave the same**, in whatever order they were written. A place either
holds one of the files, or is on the way to one, or is as it was; and which of these it is does
not depend on the order. -/
theorem AllStored.alike {d₁ d₂ : Disk} (h₁ : AllStored d d₁ cwd results)
    (h₂ : AllStored d d₂ cwd results') (hmem : ∀ r, r ∈ results ↔ r ∈ results')
    (hsame : ∀ r ∈ results, ∀ r' ∈ results,
      destination cwd r'.output = destination cwd r.output → r'.source = r.source) :
    d₁.Alike d₂ := by
  intro q
  by_cases hfile : ∃ r ∈ results, r.source ≠ [] ∧ destination cwd r.output = q
  · obtain ⟨r, hr, hsource, rfl⟩ := hfile
    rw [h₁.file r hr hsource fun r' hr' _ => hsame r hr r' hr',
      h₂.file r ((hmem r).1 hr) hsource fun r' hr' _ => hsame r hr r' ((hmem r').2 hr')]
  by_cases hway : ∃ r ∈ results, r.source ≠ [] ∧ q ∈ passed cwd r.output
  · obtain ⟨r, hr, hsource, hq⟩ := hway
    rw [h₁.directory r hr hsource q hq, h₂.directory r ((hmem r).1 hr) hsource q hq]
  · have hkept : ∀ r ∈ results, r.source ≠ [] →
        q ≠ destination cwd r.output ∧ q ∉ passed cwd r.output := fun r hr hsource =>
      ⟨fun heq => hfile ⟨r, hr, hsource, heq.symm⟩, fun hq => hway ⟨r, hr, hsource, hq⟩⟩
    rw [h₁.kept q hkept, h₂.kept q fun r hr => hkept r ((hmem r).2 hr)]

/-! ## Processing units

Each unit is processed by itself, on the same disk. What hinders it hinders it in every order,
although the failure that is reported is that of the first one. -/

/-- What hinders units from being processed hinders them in every order. -/
theorem Hindered.perm (h : Hindered d cwd o cancelled units) (hperm : units.Perm units') :
    Hindered d cwd o cancelled units' := by
  cases h with
  | canceled h hunits => exact .canceled h fun hnil => hunits (List.perm_nil.1 (hnil ▸ hperm))
  | unreadable hu h => exact .unreadable (hperm.mem_iff.1 hu) h
  | faulty hu hread h => exact .faulty (hperm.mem_iff.1 hu) hread h
  | colliding hdir hu hv hne h =>
    exact .colliding hdir (hperm.mem_iff.1 hu) (hperm.mem_iff.1 hv) hne h

/-- The results are those of the passes over the units. -/
theorem mem_results_iff (h : processUnits d cwd o cancelled units = .ok results) :
    r ∈ results ↔ ∃ u ∈ units, processUnit d cwd o cancelled u = .ok r := by
  refine ⟨(passes_of_processUnits h).2 r, fun ⟨u, hu, hpass⟩ => ?_⟩
  have hpasses :
      List.Forall₂ (fun u r => processUnit d cwd o cancelled u = .ok r) units results := by
    unfold processUnits at h
    cases hcollision : o.checkCollisions units with
    | error f => rw [hcollision] at h; cases h
    | ok _ => rw [hcollision] at h; exact forall₂_of_passes h
  obtain ⟨i, hi, rfl⟩ := List.getElem_of_mem hu
  have hr := hpasses.get hi (hpasses.length_eq ▸ hi)
  rw [List.get_eq_getElem, hpass] at hr
  rw [Except.ok.inj hr]
  exact List.get_mem _ _

/-- **Units can be processed in every order or in none**, with the same results. -/
theorem processUnits_perm (hperm : units.Perm units')
    (h : processUnits d cwd o cancelled units = .ok results) :
    ∃ results', processUnits d cwd o cancelled units' = .ok results' ∧
      ∀ r, r ∈ results ↔ r ∈ results' := by
  cases h' : processUnits d cwd o cancelled units' with
  | error f =>
    have hhindered := (processUnits_eq_error_iff.1 ⟨f, h'⟩).perm hperm.symm
    obtain ⟨g, hg⟩ := processUnits_eq_error_iff.2 hhindered
    rw [h] at hg
    cases hg
  | ok results' =>
    refine ⟨results', rfl, fun r => ?_⟩
    rw [mem_results_iff h, mem_results_iff h']
    exact exists_congr fun u => and_congr_left fun _ => hperm.mem_iff

/-! ## Generating

Generating is processing and then writing. -/

/-- Output paths of units that differ lead to places that differ. -/
def Options.Unambiguous (o : Options) (cwd : String) (units : List String) : Prop :=
  ∀ u ∈ units, ∀ v ∈ units,
    destination cwd (o.output u) = destination cwd (o.output v) → o.output u = o.output v

/-- With a suffix that is no path, outputs lead to places in the output directory. -/
theorem destination_output (hdir : o.outputDir ≠ "")
    (hsuffix : PlainSuffix o.suffix) {u : String}
    (hu : '/' ∉ Path.baseChars u.toList) :
    destination cwd (o.output u) = outputName u o.suffix :: destination cwd o.outputDir := by
  rw [output_eq hdir, Disk.destination_join hdir (isName_outputName hsuffix hu)]

/-- **A suffix that is no path keeps outputs apart.** The places differ in their names. -/
theorem unambiguous_of_plainSuffix (hdir : o.outputDir ≠ "") (hsuffix : PlainSuffix o.suffix)
    (hbase : ∀ u ∈ units, '/' ∉ Path.baseChars u.toList) : o.Unambiguous cwd units := by
  intro u hu v hv heq
  rw [destination_output hdir hsuffix (hbase u hu), destination_output hdir hsuffix (hbase v hv)]
    at heq
  rw [output_eq hdir, output_eq hdir, (List.cons.inj heq).1]

theorem generate_of_processUnits (h : processUnits d cwd o cancelled units = .ok results) :
    generate d cwd o cancelled units = writeAll cwd d results := by
  rw [generate, h]

/-- Generating that succeeds has written what it processed, and would in every order. The
results are the same, so they can be placed in either order. -/
theorem exists_generate_of_perm (hperm : units.Perm units') (hdir : o.outputDir ≠ "")
    (h : ∃ written, (generate d cwd o cancelled units).1 = .ok written) :
    ∃ results results' d₁ d₂, processUnits d cwd o cancelled units = .ok results ∧
      (∀ r, r ∈ results ↔ r ∈ results') ∧
      AllStored d d₁ cwd results ∧ AllStored d d₂ cwd results' ∧
      (∃ written, generate d cwd o cancelled units = (.ok written, d₁)) ∧
      ∃ written, generate d cwd o cancelled units' = (.ok written, d₂) := by
  obtain ⟨written, h⟩ := h
  cases hresults : processUnits d cwd o cancelled units with
  | error f =>
    rw [generate, hresults] at h
    cases h
  | ok results =>
    obtain ⟨results', hresults', hmem⟩ := processUnits_perm hperm hresults
    rw [generate_of_processUnits hresults, generate_of_processUnits hresults']
    rw [generate_of_processUnits hresults] at h
    have hhomed : ∀ r ∈ results, Homed cwd o.outputDir r.output := fun r hr => by
      obtain ⟨u, -, hpass⟩ := (passes_of_processUnits hresults).2 r hr
      exact homed_of_processUnit hdir hpass
    have hhomed' : ∀ r ∈ results', Homed cwd o.outputDir r.output :=
      fun r hr => hhomed r ((hmem r).2 hr)
    have hall : writeAll cwd d results = (.ok written, (writeAll cwd d results).2) :=
      Prod.ext h rfl
    -- What can be placed in one order can be in the other.
    have hplaceable : Placeable d cwd results' := fun r hr hsource => by
      obtain ⟨hroom, hapart⟩ :=
        (exists_writeAll_iff hhomed).1 ⟨written, _, hall⟩ r ((hmem r).2 hr) hsource
      exact ⟨hroom, fun r' hr' => hapart r' ((hmem r').2 hr')⟩
    obtain ⟨written', d₂, hall'⟩ := (exists_writeAll_iff hhomed').2 hplaceable
    exact ⟨results, results', _, d₂, rfl, hmem, allStored_of_writeAll hhomed hall,
      allStored_of_writeAll hhomed' hall', ⟨written, hall⟩, written', hall'⟩

/-- **The order of units does not matter.** Generating succeeds for a list of units exactly if
it does for the same units in another order. Where it succeeds, or does not come to writing,
both leave the same, if output paths that differ lead to places that differ.

The two orders have the same results, and each is stored with all of them. Two results at one
place have one output path, hence belong to one unit, and are the same. -/
theorem generate_perm (d : Disk) (cwd : String) (o : Options) (cancelled : Bool)
    (units units' : List String) (hperm : units.Perm units') (hdir : o.outputDir ≠ "") :
    ((∃ written, (generate d cwd o cancelled units).1 = .ok written) ↔
      ∃ written, (generate d cwd o cancelled units').1 = .ok written) ∧
    (o.Unambiguous cwd units →
      ((∃ f, processUnits d cwd o cancelled units = .error f) ∨
        ∃ written, (generate d cwd o cancelled units).1 = .ok written) →
      (generate d cwd o cancelled units).2.Alike (generate d cwd o cancelled units').2) := by
  refine ⟨⟨fun h => ?_, fun h => ?_⟩, fun hplaces h => ?_⟩
  · obtain ⟨_, _, _, _, _, _, _, _, _, written', h'⟩ := exists_generate_of_perm hperm hdir h
    exact ⟨written', by rw [h']⟩
  · obtain ⟨_, _, _, _, _, _, _, _, _, written', h'⟩ := exists_generate_of_perm hperm.symm hdir h
    exact ⟨written', by rw [h']⟩
  rcases h with hf | h
  · -- nothing has been written in either order
    have hf' := processUnits_eq_error_iff.2 ((processUnits_eq_error_iff.1 hf).perm hperm)
    obtain ⟨f, hf⟩ := hf
    obtain ⟨f', hf'⟩ := hf'
    rw [generate, generate, hf, hf']
    exact fun _ => rfl
  · obtain ⟨results, results', d₁, d₂, hresults, hmem, hall, hall',
        ⟨_, hgenerate⟩, _, hgenerate'⟩ :=
      exists_generate_of_perm hperm hdir h
    rw [hgenerate, hgenerate']
    refine hall.alike hall' hmem fun r hr r' hr' heq => ?_
    -- two results at one place have one output path, so they belong to one unit
    obtain ⟨u, hu, hpass⟩ := (mem_results_iff hresults).1 hr
    obtain ⟨v, hv, hpass'⟩ := (mem_results_iff hresults).1 hr'
    rw [(processUnit_eq_ok hpass).2, (processUnit_eq_ok hpass').2] at heq
    have houtput := hplaces v hv u hu heq
    rw [output_eq hdir, output_eq hdir, ← outputPath_eq, ← outputPath_eq] at houtput
    obtain rfl := eq_of_output_eq (processUnits_eq_ok hdir hresults).1 hv hu houtput
    rw [hpass] at hpass'
    rw [Except.ok.inj hpass']

/-- A directory with two interfaces in it. The file of one has the name of the output of the
other. -/
def chainedDisk : Disk :=
  ⟨[(["a.ts", "w"], .file (Text.ofString "export interface A \x7b a: string \x7d")),
    (["a.builder.ts", "w"], .file (Text.ofString "export interface B \x7b b: string \x7d")),
    (["w"], .directory)]⟩

/-- Options that put generated files into the working directory. -/
def besideOptions : Options := { headedOptions with outputDir := "." }

/-- A unit that is the output of another one is read before it is overwritten, in either
order. -/
theorem generate_perm_chained :
    ["a.ts", "a.builder.ts"].Perm ["a.builder.ts", "a.ts"] ∧ besideOptions.outputDir ≠ "" ∧
      (generate chainedDisk "/w" besideOptions false ["a.ts", "a.builder.ts"]).2.Alike
        (generate chainedDisk "/w" besideOptions false ["a.builder.ts", "a.ts"]).2 := by
  have hperm : ["a.ts", "a.builder.ts"].Perm ["a.builder.ts", "a.ts"] := List.Perm.swap _ _ _
  have hdir : besideOptions.outputDir ≠ "" := by decide
  refine ⟨hperm, hdir, (generate_perm chainedDisk "/w" besideOptions false _ _ hperm hdir).2 ?_
    (.inr ⟨[true, true], by decide +kernel⟩)⟩
  exact unambiguous_of_plainSuffix hdir ⟨by decide, by decide, by decide⟩ (by decide)

/-- **The last of several results stays** where they go to one place. It is written over what is
there. -/
theorem file_of_writeAll_concat (hclean : IsClean r.output) (hsource : r.source ≠ [])
    {written : List Bool} (h : writeAll cwd d (results ++ [r]) = (.ok written, d')) :
    d'.get? (destination cwd r.output) = some (.file r.source) := by
  induction results generalizing d written with
  | nil =>
    obtain ⟨b, d₁, more, hr, hrest⟩ := writeAll_cons_eq_ok h
    cases hrest
    exact ((writeResult_spec d cwd hclean hsource).1 b _ hr).2.file
  | cons r' rest ih =>
    obtain ⟨b, d₁, more, -, hrest⟩ := writeAll_cons_eq_ok h
    exact ih hrest

/-- A directory below the root with two interfaces in it. The file of one has no stem. -/
def stemlessDisk : Disk :=
  ⟨[(["a.ts", "w"], .file (Text.ofString "export interface A \x7b a: string \x7d")),
    (["..ts", "w"], .file (Text.ofString "export interface B \x7b a: string \x7d")),
    (["w"], .directory)]⟩

/-- Options whose output paths go up to the root, and on from there. -/
def climbingOptions : Options := { headedOptions with outputDir := "..", suffix := "/../w/z.ts" }

/-- Every builder starts with the name of its interface. -/
theorem source_of_mem_builders {g : Generator}
    {declarations : List Declaration} {b : BuilderClass}
    (hb : b ∈ (g.build declarations).builders) :
    ∃ rest, b.source = Text.ofString "\nexport class " ++ (b.name ++ rest) := by
  obtain ⟨declaration, -, hbuilder⟩ := List.mem_filterMap.1 hb
  unfold Generator.builder? at hbuilder
  split at hbuilder
  · split at hbuilder
    · cases hbuilder
    · cases hbuilder
      exact ⟨_, Generator.interfaceBuilder_source ..⟩
  · cases hbuilder

/-- The source of a unit with one builder: the header, and the name of the interface after the
words that start a builder. -/
theorem source_of_builder {u : String} {name : Text}
    (hname : (processUnit d cwd o cancelled u).map (·.generated.builders.map BuilderClass.name) =
      .ok [name])
    (hpass : processUnit d cwd o cancelled u = .ok r) :
    ∃ rest, r.source = o.generator.header ++
    (Text.ofString "\nexport class " ++ (name ++ rest)) := by
  rw [hpass] at hname
  have hgenerated : ∃ declarations, r.generated = o.generator.build declarations := by
    unfold processUnit at hpass
    split at hpass
    · cases hpass
    split at hpass
    · cases hpass
    · cases hpass
      exact ⟨_, rfl⟩
  obtain ⟨declarations, hgenerated⟩ := hgenerated
  replace hname : r.generated.builders.map BuilderClass.name = [name] := Except.ok.inj hname
  obtain ⟨b, hb, rfl⟩ := List.map_eq_singleton_iff.1 hname
  rw [hgenerated] at hb
  obtain ⟨rest, hrest⟩ := source_of_mem_builders (hb ▸ List.mem_cons_self)
  refine ⟨rest, ?_⟩
  rw [UnitResult.source, hgenerated, Generated.source, hb, List.isEmpty_cons,
    if_neg Bool.false_ne_true, List.flatMap_singleton, hrest]
  rfl

/-- The order of units may matter: `../w/z.ts` and `../../w/z.ts` lead to one place where
nothing lies above the first directory, and the unit that is written last keeps it. -/
theorem not_generate_perm :
    ¬ ∀ (d : Disk) (cwd : String) (o : Options) (cancelled : Bool) (units units' : List String),
      units.Perm units' → o.outputDir ≠ "" →
      (∃ written, (generate d cwd o cancelled units).1 = .ok written) →
      (∃ written, (generate d cwd o cancelled units').1 = .ok written) →
      (generate d cwd o cancelled units).2.Alike (generate d cwd o cancelled units').2 := by
  intro hall
  have hdir : climbingOptions.outputDir ≠ "" := by decide
  -- what is written last is at the place to which both output paths lead
  have hlast : ∀ u v : String, ∀ name : Text,
      (generate stemlessDisk "/w" climbingOptions false [u, v]).1 = .ok [true, true] →
      destination "/w" (climbingOptions.output v) = ["z.ts", "w"] →
      (processUnit stemlessDisk "/w" climbingOptions false v).map
        (·.generated.builders.map BuilderClass.name) = .ok [name] →
      ∃ rest, (generate stemlessDisk "/w" climbingOptions false [u, v]).2.get? ["z.ts", "w"] =
        some (.file (climbingOptions.generator.header ++
          (Text.ofString "\nexport class " ++ (name ++ rest)))) := by
    intro u v name hwritten hplace hname
    cases hresults : processUnits stemlessDisk "/w" climbingOptions false [u, v] with
    | error f =>
      rw [generate, hresults] at hwritten
      cases hwritten
    | ok results =>
      obtain ⟨-, hpasses⟩ := processUnits_eq_ok hdir hresults
      rw [generate_of_processUnits hresults] at hwritten ⊢
      obtain ⟨r, _, -, hv, rfl⟩ := List.forall₂_cons_left_iff.1 hpasses
      obtain ⟨r', _, hpass, hnil, rfl⟩ := List.forall₂_cons_left_iff.1 hv
      obtain rfl := List.forall₂_nil_left_iff.1 hnil
      obtain ⟨rest, hrest⟩ := source_of_builder hname hpass
      have hsource : r'.source ≠ [] := by
        rw [hrest]
        exact List.cons_ne_nil _ _
      have hfile := file_of_writeAll_concat (homed_of_processUnit hdir hpass).clean hsource
        (show writeAll "/w" stemlessDisk ([r] ++ [r']) = _ from Prod.ext hwritten rfl)
      rw [(processUnit_eq_ok hpass).2, hplace, hrest] at hfile
      exact ⟨rest, hfile⟩
  obtain ⟨hw, hw', hname, hname'⟩ :
      (generate stemlessDisk "/w" climbingOptions false ["a.ts", "..ts"]).1 = .ok [true, true] ∧
      (generate stemlessDisk "/w" climbingOptions false ["..ts", "a.ts"]).1 = .ok [true, true] ∧
      (processUnit stemlessDisk "/w" climbingOptions false "..ts").map
        (·.generated.builders.map BuilderClass.name) = .ok [Text.ofString "B"] ∧
      (processUnit stemlessDisk "/w" climbingOptions false "a.ts").map
        (·.generated.builders.map BuilderClass.name) = .ok [Text.ofString "A"] := by
    decide +kernel
  obtain ⟨rest, hfile⟩ := hlast "a.ts" "..ts" (Text.ofString "B") hw (by decide +kernel) hname
  obtain ⟨rest', hfile'⟩ :=
    hlast "..ts" "a.ts" (Text.ofString "A") hw' (by decide +kernel) hname'
  have halike := hall stemlessDisk "/w" climbingOptions false ["a.ts", "..ts"] ["..ts", "a.ts"]
    (List.Perm.swap _ _ _) hdir ⟨_, hw⟩ ⟨_, hw'⟩ ["z.ts", "w"]
  rw [hfile, hfile'] at halike
  -- the names of the interfaces tell the files apart
  have hnames := Entry.file.inj (Option.some.inj halike)
  replace hnames := List.append_cancel_left (List.append_cancel_left hnames)
  exact absurd (List.append_inj_left hnames (by decide)) (by decide)

end Pass

end Exemplar
