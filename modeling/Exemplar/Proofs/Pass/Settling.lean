import Exemplar.Proofs.Pass.Watching

/-!
# The initial pass of a watch

A watch starts with a pass over its units that does for each what a check asks for: its output
file has the builders, or is not there if there are none (`InStep`). What was brought into step
for the units before stays so when the next one is regenerated, as long as outputs keep out of
each other's way and out of the way of the units (`OutOfTheWay`). So a check that follows finds
nothing out of date.

Nothing makes sure of that. With a suffix that is no path, there is one way for it to fail: what
is removed for a unit without builders need not be a file that was generated, as an empty
directory goes as well.

The invariant of the pass is that the units before the next one are settled: each of them would
be processed now as it was then, and its output is in step. Regenerating a unit changes the disk
in one of three ways (`Synced`), and for each it is shown what stays: files that can be read,
outputs that are in step, and that the outputs are out of the way. A unit is never at the place
of an output by assumption, so it is read again as it was.
-/

namespace Exemplar.Pass

open Exemplar.Disk (destination passed standing Room Stored Removed IsClean)

variable {d d' : Disk} {cwd : String} {o : Options} {cancelled : Bool} {units : List String}
  {r r' : UnitResult} {u v : String} {events : List Event} {q : Place}

/-! ## What is in step

What is written goes to the place of the output, and directories to where nothing was. What is
removed is at the place of the output as well. So an output at another place is only concerned
if one of the two is on the way to the other. -/

/-- The output file of a result is in step with it: it has the builders, or is not there if
there are none. -/
structure InStep (d : Disk) (cwd : String) (r : UnitResult) : Prop where
  /-- The file has the builders. -/
  written : r.source ≠ [] → d.read cwd r.output = .ok r.source
  /-- There is no file without builders. -/
  absent : r.source = [] → d.stat cwd r.output = .error .missing

/-- What is in step is up to date. -/
theorem InStep.isStale (h : InStep d cwd r) : isStale d cwd r = .ok false := by
  by_cases hsource : r.source = []
  · exact (isStale_iff_cleared hsource).2 (.inl (h.absent hsource))
  · obtain ⟨hpath, hway, hget⟩ := Disk.read_eq_ok_iff.1 (h.written hsource)
    exact Written.isStale ⟨_, (Disk.locate_eq_ok_iff hpath).2 ⟨rfl, hway⟩, hget⟩

/-- **An output that was brought into step is in step.** -/
theorem Synced.inStep (h : Synced d d' cwd r) (hclean : IsClean r.output)
    (hroot : destination cwd r.output ≠ []) : InStep d' cwd r := by
  refine ⟨(h.read hclean).1, fun hnil => ?_⟩
  cases h with
  | written hsource _ _ => exact absurd hnil hsource
  | absent _ hstat hsame => exact hsame ▸ hstat
  | removed _ hremoved => exact hremoved.stat hroot

/-- The disk stays a tree. -/
theorem Synced.isTree (h : Synced d d' cwd r) (ht : d.IsTree) : d'.IsTree := by
  cases h with
  | written _ hroom hstored => exact hstored.isTree hroom ht
  | absent _ _ hsame => exact hsame ▸ ht
  | removed _ hremoved => exact hremoved.isTree ht

/-- A place becomes a directory only on the way to the output. -/
theorem Synced.directory_of_notMem (h : Synced d d' cwd r) (hway : q ∉ passed cwd r.output)
    (hq : d'.get? q = some .directory) : d.get? q = some .directory := by
  cases h with
  | written _ _ hstored =>
    by_cases hend : q = destination cwd r.output
    · rw [hend, hstored.file] at hq
      cases hq
    · rwa [hstored.kept q hend hway] at hq
  | absent _ _ hsame => exact hsame ▸ hq
  | removed _ hremoved =>
    by_cases hnil : q = []
    · subst hnil
      rfl
    by_cases hend : q = destination cwd r.output
    · rw [hremoved.erased, ← hend, Disk.get?_erase_self d hnil] at hq
      cases hq
    · rwa [hremoved.kept hend] at hq

/-- **A file that can be read still can**, with the same content, if it is not at the place of
the output and not in a directory that was there. -/
theorem Synced.read_of_ne (h : Synced d d' cwd r) {path : String} {content : Text}
    (hne : destination cwd path ≠ destination cwd r.output)
    (hway : destination cwd r.output ∈ passed cwd path →
      d.get? (destination cwd r.output) ≠ some .directory)
    (hread : d.read cwd path = .ok content) : d'.read cwd path = .ok content := by
  cases h with
  | written _ hroom hstored => exact hstored.read_of_ne hroom hne hread
  | absent _ _ hsame => exact hsame ▸ hread
  | removed _ hremoved =>
    have hdirs := (Disk.read_eq_ok_iff.1 hread).2.1
    rw [Disk.read_congr (hremoved.stat_of_ne hne fun hmem => hway hmem (hdirs _ hmem)), hread]

/-- **An output that is in step stays so** when one at another place is brought into step, and
neither is on the way to the other. -/
theorem Synced.inStep_of_ne {dir : String} (h : Synced d d' cwd r) (ht : d.IsTree)
    (hr : Homed cwd dir r.output)
    (hr' : Homed cwd dir r'.output) (hne : destination cwd r'.output ≠ destination cwd r.output)
    (hway : destination cwd r.output ∉ passed cwd r'.output)
    (hway' : destination cwd r'.output ∉ passed cwd r.output) (h' : InStep d cwd r') :
    InStep d' cwd r' := by
  refine ⟨fun hsource => h.read_of_ne hne (fun hmem => absurd hmem hway) (h'.written hsource),
    fun hsource => ?_⟩
  have hstat := h'.absent hsource
  cases h with
  | written _ hroom hstored =>
    exact hstored.stat_of_missing hroom ht hr'.clean
      (by rw [hr.start, hr'.start]) hne hway hway' hstat
  | absent _ _ hsame => exact hsame ▸ hstat
  | removed _ hremoved => rw [hremoved.stat_of_ne hne hway, hstat]

/-! ## The initial pass

The conditions are about paths and the disk at the beginning. They hold after each step as well,
because no step makes a directory at the place of an output. -/

/-- Outputs are out of the way: of each other, and of the units. -/
structure OutOfTheWay (d : Disk) (cwd : String) (o : Options) (units : List String) : Prop where
  /-- Outputs that differ go to places that differ. -/
  places : o.Unambiguous cwd units
  /-- No output is on the way to an output. -/
  outputs : ∀ u ∈ units, ∀ v ∈ units, destination cwd (o.output u) ∉ passed cwd (o.output v)
  /-- No directory on the way to a unit is where an output goes. -/
  units : ∀ u ∈ units, ∀ v ∈ units, destination cwd (o.output u) ∈ passed cwd v →
    d.get? (destination cwd (o.output u)) ≠ some .directory

/-- **A suffix that is no path keeps outputs out of the way**, as long as none leads to a
directory. -/
theorem outOfTheWay_of_plainSuffix (hdir : o.outputDir ≠ "") (hsuffix : PlainSuffix o.suffix)
    (hbase : ∀ u ∈ units, '/' ∉ Path.baseChars u.toList) (ht : d.IsTree)
    (hstart : ∀ q ∈ standing cwd o.outputDir, d.get? q = some .directory)
    (hfree : ∀ u ∈ units, d.get? (destination cwd (o.output u)) ≠ some .directory) :
    OutOfTheWay d cwd o units := by
  refine ⟨unambiguous_of_plainSuffix hdir hsuffix hbase, fun u hu v hv hmem => ?_,
    fun u hu _ _ _ => hfree u hu⟩
  obtain ⟨hclean, hhome⟩ : Homed cwd o.outputDir (o.output v) := homed_output hdir v
  -- the places on the way are directories, or less deep than the output files
  rcases ht.directory_or_length_lt hclean (hhome ▸ hstart) hmem with h | h
  · exact hfree u hu h
  · rw [destination_output hdir hsuffix (hbase u hu),
      destination_output hdir hsuffix (hbase v hv), List.length_cons, List.length_cons] at h
    exact Nat.lt_irrefl _ h

/-- Outputs stay out of the way. -/
theorem OutOfTheWay.of_synced (h : OutOfTheWay d cwd o units) (hu : u ∈ units)
    (hr : r.output = o.output u) (hsynced : Synced d d' cwd r) : OutOfTheWay d' cwd o units := by
  refine ⟨h.places, h.outputs, fun v hv w hw hmem hdir => h.units v hv w hw hmem ?_⟩
  refine hsynced.directory_of_notMem ?_ hdir
  rw [hr]
  exact h.outputs v hv u hu

/-- A unit can be processed, and its output is in step. -/
def Settled (d : Disk) (cwd : String) (o : Options) (u : String) : Prop :=
  ∃ r, processUnit d cwd o false u = .ok r ∧ InStep d cwd r

section InitialPass

variable (hdir : o.outputDir ≠ "")
  (hoverlap : ∀ u ∈ units, ∀ v ∈ units, o.output u = o.output v → u = v)
  (hunits : ∀ u ∈ units, ∀ v ∈ units, destination cwd (o.output u) ≠ destination cwd v)

include hunits

/-- Units are processed as before once an output was brought into step. -/
theorem processUnit_of_synced (hway : OutOfTheWay d cwd o units)
    (hu : u ∈ units) (hv : v ∈ units)
    (hr : r.output = o.output u) (hsynced : Synced d d' cwd r)
    (hpass : processUnit d cwd o false v = .ok r') : processUnit d' cwd o false v = .ok r' := by
  obtain ⟨⟨content, hread⟩, -⟩ := processUnit_eq_ok hpass
  have hread' : d'.read cwd v = .ok content := by
    refine hsynced.read_of_ne ?_ ?_ hread <;> rw [hr]
    · exact (hunits u hu v hv).symm
    · exact hway.units u hu v hv
  rw [processUnit_congr (hread'.trans hread.symm), hpass]

include hdir hoverlap

/-- **One step of the initial pass** settles its unit, and leaves settled what was. -/
theorem settled_of_synced (ht : d.IsTree) (hway : OutOfTheWay d cwd o units) (hu : u ∈ units)
    (hpass : processUnit d cwd o false u = .ok r) (hsynced : Synced d d' cwd r) :
    Settled d' cwd o u ∧ ∀ v ∈ units, Settled d cwd o v → Settled d' cwd o v := by
  have hr := (processUnit_eq_ok hpass).2
  have hhomed : Homed cwd o.outputDir r.output := homed_of_processUnit hdir hpass
  have hroot : destination cwd r.output ≠ [] := fun hnil =>
    hway.outputs u hu u hu (by rw [← hr, hnil]; exact Disk.nil_mem_passed cwd r.output)
  have hself : Settled d' cwd o u :=
    ⟨r, processUnit_of_synced hunits hway hu hu hr hsynced hpass,
      hsynced.inStep hhomed.clean hroot⟩
  refine ⟨hself, fun v hv ⟨r', hpass', hstep⟩ => ?_⟩
  have hr' := (processUnit_eq_ok hpass').2
  by_cases hsame : v = u
  · exact hsame ▸ hself
  · have hne : destination cwd r'.output ≠ destination cwd r.output := by
      rw [hr, hr']
      exact fun heq => hsame (hoverlap v hv u hu (hway.places v hv u hu heq))
    refine ⟨r', processUnit_of_synced hunits hway hu hv hr hsynced hpass', ?_⟩
    refine hsynced.inStep_of_ne ht hhomed (homed_of_processUnit hdir hpass') hne ?_ ?_ hstep
    · rw [hr, hr']
      exact hway.outputs u hu v hv
    · rw [hr, hr']
      exact hway.outputs v hv u hu

/-- **The initial pass settles its units** one by one, if none of them fails. By induction on
the units that are left. -/
theorem settled_of_regenerateAll {front rest : List String}
    (hfront : front ⊆ units) (hrest : rest ⊆ units)
    (ht : d.IsTree) (hway : OutOfTheWay d cwd o units)
    (hsettled : ∀ u ∈ front, Settled d cwd o u)
    (h : regenerateAll cwd o false d rest = (events, d'))
    (hok : ∀ e ∈ events, e.failure = none) :
    ∀ u ∈ front ++ rest, Settled d' cwd o u := by
  induction rest generalizing d front events with
  | nil =>
    cases h
    rwa [List.append_nil]
  | cons u rest ih =>
    obtain ⟨e, d₁, more, hregenerate, hmore, rfl⟩ := regenerateAll_cons h
    rw [List.forall_mem_cons] at hok
    rw [List.cons_subset] at hrest
    obtain ⟨r, hpass, -, hsynced⟩ := synced_of_regenerate hdir hregenerate hok.1
    obtain ⟨hself, hkept⟩ := settled_of_synced hdir hoverlap hunits ht hway hrest.1 hpass hsynced
    have hfront' : front ++ [u] ⊆ units :=
      List.append_subset.2 ⟨hfront, List.cons_subset.2 ⟨hrest.1, List.nil_subset _⟩⟩
    rw [List.append_cons]
    refine ih hfront' hrest.2 (hsynced.isTree ht)
      (hway.of_synced hrest.1 (processUnit_eq_ok hpass).2 hsynced) ?_ hmore hok.2
    exact List.forall_mem_append.2 ⟨fun v hv => hkept v (hfront hv) (hsettled v hv),
      List.forall_mem_singleton.2 hself⟩

end InitialPass

/-- **After the initial pass of a watch, a check is passed.** If no two units have one output,
no output is the file of a unit, and outputs are out of the way, then a check finds everything
up to date once all units were regenerated without failure; and there is no output file of a
unit without builders.

All units are settled in the end, so a check processes them as they were processed, and finds
each of their outputs in step. -/
theorem upToDate_check_watch (d d' : Disk) (cwd : String) (o : Options)
    (units : List String) (w : Watched)
    (events : List Event) (hdir : o.outputDir ≠ "") (htree : d.IsTree)
    (hoverlap : ∀ u ∈ units, ∀ v ∈ units, o.output u = o.output v → u = v)
    (hunits : ∀ u ∈ units, ∀ v ∈ units, destination cwd (o.output u) ≠ destination cwd v)
    (hway : OutOfTheWay d cwd o units) (h : watch d cwd o false units = (.ok (w, events), d'))
    (hok : ∀ e ∈ events, e.failure = none) :
    (∃ c, check d' cwd o false units = .ok c ∧ c.upToDate = true) ∧
      ∀ u ∈ units, ∃ r, processUnit d' cwd o false u = .ok r ∧
        (r.source = [] → d'.stat cwd (o.output u) = .error .missing) := by
  have hsettled : ∀ u ∈ units, Settled d' cwd o u :=
    settled_of_regenerateAll hdir hoverlap hunits
      (show [] ⊆ units from List.nil_subset _) (List.Subset.refl _)
      htree hway (fun _ hu => absurd hu List.not_mem_nil) (watch_eq_ok h) hok
  refine ⟨?_, fun u hu => ?_⟩
  · obtain ⟨results, hresults⟩ := exists_processUnits
      (fun u hu => (hsettled u hu).imp fun _ hpass => hpass.1) hoverlap
    refine (upToDate_check_iff hdir hresults).2 fun r hr => ?_
    obtain ⟨u, hu, hpass⟩ := (mem_results_iff hresults).1 hr
    obtain ⟨r', hpass', hstep⟩ := hsettled u hu
    rw [hpass] at hpass'
    cases hpass'
    exact hstep.isStale
  · obtain ⟨r, hpass, hstep⟩ := hsettled u hu
    exact ⟨r, hpass, fun hsource => (processUnit_eq_ok hpass).2 ▸ hstep.absent hsource⟩

/-- What a watch leads to that reports no failure. -/
theorem exists_events_of_watch
    (h : (watch d cwd o cancelled units).1.map (·.2.all (·.failure.isNone)) = .ok true) :
    ∃ w events, watch d cwd o cancelled units
      = (.ok (w, events), (watch d cwd o cancelled units).2) ∧
      ∀ e ∈ events, e.failure = none := by
  cases hwatch : watch d cwd o cancelled units with
  | mk outcome next =>
    rw [hwatch] at h
    cases outcome with
    | error f => cases h
    | ok started =>
      exact ⟨started.1, started.2, rfl, fun e he =>
        Option.isNone_iff_eq_none.1 (List.all_eq_true.1 (Except.ok.inj h) e he)⟩

/-- A directory with an interface and a class in it, and with outputs from another time. -/
def driftedDisk : Disk :=
  ⟨[(["a.ts", "w"], .file (Text.ofString "export interface A \x7b a: string \x7d")),
    (["e.ts", "w"], .file (Text.ofString "export class C \x7b\x7d")),
    (["a.builder.ts", "out", "w"], .file (Text.ofString "old")),
    (["e.builder.ts", "out", "w"], .file (Text.ofString "old")),
    (["out", "w"], .directory), (["w"], .directory)]⟩

/-- An output from another time is written anew, or removed. -/
theorem upToDate_check_watch_drifted :
    ∃ w events d', watch driftedDisk "/w" headedOptions false ["a.ts", "e.ts"]
      = (.ok (w, events), d') ∧
      (∃ c, check d' "/w" headedOptions false ["a.ts", "e.ts"] = .ok c ∧ c.upToDate = true) ∧
      d'.stat "/w" "out/e.builder.ts" = .error .missing := by
  -- nothing fails, and a class has no builders
  obtain ⟨hquiet, hsource⟩ :
      (watch driftedDisk "/w" headedOptions false ["a.ts", "e.ts"]).1.map
        (·.2.all (·.failure.isNone)) = .ok true ∧
      (processUnit (watch driftedDisk "/w" headedOptions false ["a.ts", "e.ts"]).2 "/w"
        headedOptions false "e.ts").map (·.source.isEmpty) = .ok true := by
    decide +kernel
  obtain ⟨w, events, hwatch, hok⟩ := exists_events_of_watch hquiet
  have hdir : headedOptions.outputDir ≠ "" := by decide
  have ht : driftedDisk.IsTree := Disk.isTree_of_entries (by decide +kernel)
  obtain ⟨hcheck, habsent⟩ :=
    upToDate_check_watch driftedDisk _ "/w" headedOptions ["a.ts", "e.ts"] w
    events hdir ht (by decide +kernel) (by decide +kernel)
    (outOfTheWay_of_plainSuffix hdir ⟨by decide, by decide, by decide⟩ (by decide +kernel) ht
      (by decide +kernel) (by decide +kernel)) hwatch hok
  refine ⟨w, events, _, hwatch, hcheck, ?_⟩
  obtain ⟨r, hpass, hstat⟩ := habsent "e.ts" (by decide)
  rw [hpass] at hsource
  have houtput : headedOptions.output "e.ts" = "out/e.builder.ts" := by decide +kernel
  rw [← houtput]
  exact hstat (List.isEmpty_iff.1 (Except.ok.inj hsource))

/-- A directory with an interface and a class in it, and with a directory in place of an
output. -/
def detourDisk : Disk :=
  ⟨[(["b.ts", "w"], .file (Text.ofString "export interface B \x7b b: string \x7d")),
    (["e.ts", "w"], .file (Text.ofString "export class C \x7b\x7d")),
    (["e.builder.ts", "out", "w"], .directory), (["out", "w"], .directory), (["w"], .directory)]⟩

/-- The initial pass may make a check fail: an empty directory at the place of an output is
removed like an output, and then a unit whose path leads through it is not found any more. -/
theorem not_upToDate_check_watch :
    ¬ ∀ (d d' : Disk) (cwd : String) (o : Options) (units : List String) (w : Watched)
      (events : List Event), o.outputDir ≠ "" → d.IsTree →
      (∀ u ∈ units, ∀ v ∈ units, o.output u = o.output v → u = v) →
      (∀ u ∈ units, ∀ v ∈ units, destination cwd (o.output u) ≠ destination cwd v) →
      watch d cwd o false units = (.ok (w, events), d') → (∀ e ∈ events, e.failure = none) →
      ∃ c, check d' cwd o false units = .ok c ∧ c.upToDate = true := by
  intro hall
  obtain ⟨hquiet, hcheck⟩ :
      (watch detourDisk "/w" headedOptions false ["out/e.builder.ts/../../b.ts", "e.ts"]).1.map
        (·.2.all (·.failure.isNone)) = .ok true ∧
      ((check (watch detourDisk "/w" headedOptions false
        ["out/e.builder.ts/../../b.ts", "e.ts"]).2 "/w" headedOptions false
        ["out/e.builder.ts/../../b.ts", "e.ts"]).map CheckResult.upToDate).toBool = false := by
    decide +kernel
  obtain ⟨w, events, hwatch, hok⟩ := exists_events_of_watch hquiet
  obtain ⟨c, hc, -⟩ :=
    hall detourDisk _ "/w" headedOptions ["out/e.builder.ts/../../b.ts", "e.ts"] w events
    (by decide) (Disk.isTree_of_entries (by decide +kernel)) (by decide +kernel)
    (by decide +kernel) hwatch hok
  rw [hc] at hcheck
  cases hcheck

end Exemplar.Pass
