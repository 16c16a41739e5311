import Exemplar.Config.Validate
import Exemplar.Proofs.Pass.Failing

/-!
# What generating does to its units

A file that units are generated from is not safe from being generated to. Outputs are told apart
from each other, but nobody compares them with the units, and a valid suffix may give a unit
back its own name. So a unit is left as it is unless builders are written to the very place it
was read from, and this is the only way to lose it: whatever else is written, and wherever
writing fails, its content stays.

The proof follows one place through all writes (`KeptOrStored`). It holds the unit, or builders
once they were written there, and in either case it holds a file; so no directory is ever made
there, and the only thing that can happen to it is that it is written again. A write that fails
may have made directories, but these go where nothing was.
-/

namespace Exemplar.Pass

variable {d d' : Disk} {cwd : String} {o : Options} {cancelled : Bool} {units : List String}
  {p : Place} {content : Text}

/-! ## Writing

One write is taken apart into the directories that it makes and the file that it writes. Both
keep all directories, so paths lead where they led. -/

/-- The source of a result is at a place, which is where its output leads. -/
structure StoredAt (d : Disk) (cwd : String) (p : Place) (r : UnitResult) : Prop where
  nonempty : r.source ≠ []
  output : d.locate cwd r.output = .ok p
  content : d.get? p = some (.file r.source)

/-- A place holds a file it held before, or the source of one of the results. -/
def KeptOrStored (d : Disk) (cwd : String) (p : Place) (content : Text)
    (results : List UnitResult) :
    Prop :=
  d.get? p = some (.file content) ∨ ∃ r ∈ results, StoredAt d cwd p r

/-- **One write keeps all directories and the content of every file but its own**, whether it
succeeds or fails. -/
theorem writeResult_file (cwd : String) (r : UnitResult) (h : d.get? p = some (.file content)) :
    d.KeepsDirs (writeResult d cwd r).2 ∧
      ((writeResult d cwd r).2.get? p = some (.file content) ∨
        StoredAt (writeResult d cwd r).2 cwd p r) := by
  unfold writeResult
  split
  · exact ⟨fun _ hq => hq, .inl h⟩
  split
  · exact ⟨fun _ hq => hq, .inl h⟩
  · rename_i hsource
    have hne : r.source ≠ [] := fun hnil => hsource (List.isEmpty_iff.2 hnil)
    dsimp only
    cases hmade : d.makeDirs cwd (Path.dir r.output) with
    | error reason => exact ⟨fun _ hq => hq, .inl h⟩
    | ok made =>
      -- Directories are only made where nothing was.
      have hkeeps := Disk.keeps_makeDirs hmade
      dsimp only
      cases hwrite : made.write cwd r.output r.source with
      | error reason => exact ⟨hkeeps.keepsDirs, .inl (hkeeps p _ h)⟩
      | ok written =>
        obtain ⟨q, hlocate, hroot, hdir, rfl⟩ := Disk.write_eq_ok hwrite
        have hdirs := Disk.keepsDirs_set_file r.source hdir
        refine ⟨fun q' hq' => hdirs q' (hkeeps.keepsDirs q' hq'), ?_⟩
        by_cases hpq : p = q
        · -- The file is the output itself.
          subst hpq
          exact .inr ⟨hne, hdirs.locate hlocate, Disk.get?_set_self _ hroot _⟩
        · exact .inl ((Disk.get?_set_of_ne _ hpq _).trans (hkeeps p _ h))

/-- A place stays as it is, or is stored to, by one more write. -/
theorem KeptOrStored.writeResult {results : List UnitResult}
    (h : KeptOrStored d cwd p content results)
    {r : UnitResult} (hr : r ∈ results) :
    d.KeepsDirs (writeResult d cwd r).2 ∧
      KeptOrStored (writeResult d cwd r).2 cwd p content results := by
  rcases h with h | ⟨r', hr', h⟩
  · obtain ⟨hdirs, hfile⟩ := writeResult_file cwd r h
    exact ⟨hdirs, hfile.imp id fun hstored => ⟨r, hr, hstored⟩⟩
  · -- what was stored before is a file as well
    obtain ⟨hdirs, hfile | hstored⟩ := writeResult_file cwd r h.content
    · exact ⟨hdirs, .inr ⟨r', hr', h.nonempty, hdirs.locate h.output, hfile⟩⟩
    · exact ⟨hdirs, .inr ⟨r, hr, hstored⟩⟩

/-- **Writing results keeps every file, or stores one of them there**, however far it comes. -/
theorem KeptOrStored.writeAll {results rest : List UnitResult}
    (h : KeptOrStored d cwd p content results) (hrest : rest ⊆ results) :
    d.KeepsDirs (writeAll cwd d rest).2 ∧
      KeptOrStored (writeAll cwd d rest).2 cwd p content results := by
  induction rest generalizing d with
  | nil => exact ⟨fun _ hq => hq, h⟩
  | cons r rest ih =>
    obtain ⟨hdirs, hnext⟩ := h.writeResult (hrest List.mem_cons_self)
    rw [Pass.writeAll]
    -- If a write fails, those behind it are not tried.
    cases hr : Pass.writeResult d cwd r with
    | mk outcome next =>
      rw [hr] at hdirs hnext
      cases outcome with
      | error f => exact ⟨hdirs, hnext⟩
      | ok written =>
        obtain ⟨hdirs', hlast⟩ := ih hnext fun r' hr' => hrest (List.mem_cons_of_mem _ hr')
        dsimp only
        cases hall : Pass.writeAll cwd next rest with
        | mk outcomes last =>
          rw [hall] at hdirs' hlast
          cases outcomes with
          | error f => exact ⟨fun q hq => hdirs' q (hdirs q hq), hlast⟩
          | ok more => exact ⟨fun q hq => hdirs' q (hdirs q hq), hlast⟩

/-! ## Generating

Everything is read before anything is written, so the results are those of the units as they
were. -/

/-- **A unit is lost only to builders that are written to its own place.** However generating
ends, every unit reads as before, unless its file is the output file of a unit with builders;
then it holds the builders of such a unit.

If a unit cannot be processed, nothing is written. Otherwise the place of the unit is followed
through the writes. -/
theorem read_generate_unit (d : Disk) (cwd : String) (o : Options) (cancelled : Bool)
    (units : List String) (u : String) (hu : u ∈ units) :
    (generate d cwd o cancelled units).2.read cwd u = d.read cwd u ∨
      ∃ v ∈ units, ∃ r p, processUnit d cwd o cancelled v = .ok r ∧ r.source ≠ [] ∧
        d.locate cwd u = .ok p ∧
        (generate d cwd o cancelled units).2.locate cwd (o.output v) = .ok p ∧
        (generate d cwd o cancelled units).2.read cwd u = .ok r.source := by
  unfold generate
  cases hresults : processUnits d cwd o cancelled units with
  | error f => exact .inl rfl
  | ok results =>
    obtain ⟨hunits, hsources⟩ := passes_of_processUnits hresults
    obtain ⟨_, hpass⟩ := hunits u hu
    obtain ⟨⟨content, hread⟩, -⟩ := processUnit_eq_ok hpass
    obtain ⟨p, hplace, hfile⟩ := Disk.stat_eq_ok_iff.1 (Disk.read_eq_ok.1 hread)
    -- Before the first write the file is the one that was read.
    have hstart : KeptOrStored d cwd p content results := .inl hfile
    obtain ⟨hdirs, hkept | ⟨r, hr, hstored⟩⟩ := hstart.writeAll (List.Subset.refl results)
    · left
      rw [hread]
      exact Disk.read_of_get? (hdirs.locate hplace) hkept
    · right
      obtain ⟨v, hv, hpass⟩ := hsources r hr
      refine ⟨v, hv, r, p, hpass, hstored.nonempty, hplace, ?_, ?_⟩
      · rw [← (processUnit_eq_ok hpass).2]
        exact hstored.output
      · exact Disk.read_of_get? (hdirs.locate hplace) hstored.content

/-- Where the builders go to a directory of their own, the unit stays. -/
theorem read_generate_unit_interface :
    "a.ts" ∈ ["a.ts"] ∧
      (generate freshDisk "/w" headedOptions false ["a.ts"]).2.read "/w" "a.ts"
        = freshDisk.read "/w" "a.ts" := by
  have hu : "a.ts" ∈ ["a.ts"] := List.mem_cons_self
  refine ⟨hu, ?_⟩
  rcases read_generate_unit freshDisk "/w" headedOptions false ["a.ts"] "a.ts" hu with
    h | ⟨v, hv, r, p, -, -, hp, hout, -⟩
  · exact h
  · -- the output leads to another place
    have hplace : freshDisk.locate "/w" "a.ts" = .ok ["a.ts", "w"] := by decide +kernel
    have houtput : (generate freshDisk "/w" headedOptions false ["a.ts"]).2.locate "/w"
        (headedOptions.output "a.ts") = .ok ["a.builder.ts", "out", "w"] := by decide +kernel
    rw [List.mem_singleton.1 hv, houtput] at hout
    rw [hplace] at hp
    exact absurd (Except.ok.inj hout |>.trans (Except.ok.inj hp).symm) (by decide)

/-- A configuration that is like the usual one, but gives generated files a header and the
ending of a source, and puts them into the working directory. -/
def sourceSuffixed : Config :=
  { Config.default with
    generate := { Config.default.generate with
      header := "// generated", outputDir := ".", suffix := ".ts" } }

/-- The options of that configuration. -/
def sourceSuffixedOptions : Options :=
  ⟨.empty, ⟨.sampling "", Text.ofString "// generated"⟩, ".", ".ts", 0⟩

/-- Not every unit survives a run with a valid configuration: a unit may be its own output. -/
theorem not_read_generate_unit :
    ¬ ∀ (c : Config) (version : String) (d : Disk) (cwd : String) (o :
        Options) (cancelled : Bool)
      (units : List String), c.validate version = .ok () → o.outputDir = c.generate.outputDir →
      o.suffix = c.generate.suffix → o.outputDir ≠ "" →
      ∀ u ∈ units, (generate d cwd o cancelled units).2.read cwd u = d.read cwd u := by
  intro hall
  have hvalid : sourceSuffixed.validate "dev" = .ok () := by decide +kernel
  have hsame :=
    hall sourceSuffixed "dev" freshDisk "/w" sourceSuffixedOptions false ["a.ts"] hvalid
    rfl rfl (by decide) "a.ts" List.mem_cons_self
  -- the file starts with the header now
  have hlost :
      ((generate freshDisk "/w" sourceSuffixedOptions false ["a.ts"]).2.read "/w" "a.ts").map
      List.head? ≠ (freshDisk.read "/w" "a.ts").map List.head? := by decide +kernel
  exact hlost (congrArg _ hsame)

end Exemplar.Pass
