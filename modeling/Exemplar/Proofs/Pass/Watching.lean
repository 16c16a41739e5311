import Exemplar.Pass.Watch
import Exemplar.Proofs.Disk.Removing
import Exemplar.Proofs.Pass.Ordering

/-!
# Watching units

A watch asks for the directories of its units, and then goes over the units, one after another:
each is processed, and its output file is written, or removed if there are no builders. What one
unit does to the file system is little (`Synced`): the place of its output is written or
cleared, and directories are made on the way to it.

Outputs that two units share are refused when units are generated or checked, but not when they
are watched, and then the last unit has its way.

What is said here is about the round that a watch starts with, which goes over all units. A
later event regenerates one of them and does the same for it alone. A unit that fails does not
end the watch: its event carries the failure, and nothing is said of its output.
-/

namespace Exemplar.Pass

open Exemplar.Disk (destination passed standing Room Stored Removed IsClean)

variable {d d' : Disk} {cwd : String} {o : Options} {cancelled : Bool} {units : List String}
  {r r' : UnitResult} {u v : String} {e : Event} {events : List Event} {q : Place}

/-! ## Starting

For each unit the directory it is in is looked up. The first that is missing ends the watch
before anything is done. -/

/-- **Units can be watched exactly if their directories are there.** -/
theorem startWatch_eq_error_iff :
    (∃ f, startWatch d cwd units = .error f) ↔
      ∃ u ∈ units, d.holds cwd (Path.dir (Path.resolve cwd u)) = false := by
  induction units with
  | nil => exact ⟨fun ⟨_, h⟩ => (by cases h), fun ⟨_, hu, _⟩ => absurd hu List.not_mem_nil⟩
  | cons unit rest ih =>
    rw [startWatch, List.exists_mem_cons_iff, ← ih, Disk.holds, watchDirectory]
    generalize Path.resolve cwd unit = path
    cases d.stat cwd (Path.dir path) with
    | error refusal => exact ⟨fun _ => .inl rfl, fun _ => ⟨_, rfl⟩⟩
    | ok entry =>
      cases startWatch d cwd rest with
      | error f => exact ⟨fun _ => .inr ⟨f, rfl⟩, fun _ => ⟨f, rfl⟩⟩
      | ok watched =>
        exact ⟨fun ⟨_, h⟩ => (by cases h),
          fun h => h.elim (fun h => (by cases h)) fun ⟨_, h⟩ => (by cases h)⟩

/-- A watch that has started goes over all its units. -/
theorem watch_eq_ok {w : Watched} (h : watch d cwd o cancelled units = (.ok (w, events), d')) :
    regenerateAll cwd o cancelled d units = (events, d') := by
  unfold watch at h
  cases hstart : startWatch d cwd units with
  | error f => rw [hstart] at h; cases h
  | ok watched =>
    rw [hstart] at h
    cases h
    rfl

/-- One that has not started has changed nothing. -/
theorem watch_eq_error (h : watch d cwd o cancelled units = (.error f, d')) :
    startWatch d cwd units = .error f ∧ d' = d := by
  unfold watch at h
  cases hstart : startWatch d cwd units with
  | error f' =>
    rw [hstart] at h
    cases h
    exact ⟨rfl, rfl⟩
  | ok watched => rw [hstart] at h; cases h

/-! ## Bringing an output into step

There are two cases, by whether there are builders. If there are none, the output is removed,
and it does no harm if there is nothing to remove. -/

/-- What bringing an output into step does. -/
inductive Synced (d d' : Disk) (cwd : String) (r : UnitResult) : Prop
  /-- The builders are stored. -/
  | written (hsource : r.source ≠ []) (hroom : Room d cwd r.output)
      (hstored : Stored d d' cwd r.output r.source)
  /-- There are no builders, and nothing is there. -/
  | absent (hsource : r.source = [])
      (hstat : d.stat cwd r.output = .error .missing) (hsame : d' = d)
  /-- There are no builders, and what was there is removed. -/
  | removed (hsource : r.source = []) (hremoved : Removed d d' cwd r.output)

/-- Bringing an output into step succeeds in one of these ways. -/
theorem synced_of_sync (hclean : IsClean r.output) {b : Bool} (h : sync d cwd r = (.ok b, d')) :
    Synced d d' cwd r := by
  unfold sync at h
  rw [if_neg (by simpa using hclean.ne_empty)] at h
  -- Without builders nothing is written, and what is removed is known. With builders they are
  -- written.
  by_cases hsource : r.source = []
  · rw [writeResult_of_source_nil hsource hclean] at h
    dsimp only at h
    cases hremove : d.remove cwd r.output with
    | ok last =>
      rw [hremove] at h
      cases h
      exact .removed hsource (Disk.removed_of_remove hremove)
    | error refusal =>
      rw [hremove] at h
      cases refusal with
      | missing =>
        cases h
        exact .absent hsource (Disk.remove_eq_missing_iff.1 hremove) rfl
      | _ => cases h
  · obtain ⟨hsound, -⟩ := writeResult_spec d cwd hclean hsource
    cases hwrite : writeResult d cwd r with
    | mk outcome next =>
      rw [hwrite] at h
      cases outcome with
      | error f => cases h
      | ok written =>
        obtain ⟨hroom, hstored⟩ := hsound written next hwrite
        cases written with
        | true =>
          cases h
          exact .written hsource hroom hstored
        | false =>
          exfalso
          rcases writeResult_eq_ok hwrite with ⟨-, hnil, -⟩ | ⟨htrue, -⟩
          · exact hsource hnil
          · cases htrue

/-- **A unit that is regenerated without failure** has been processed, and its output brought
into step. -/
theorem synced_of_regenerate (hdir : o.outputDir ≠ "")
    (h : regenerate d cwd o cancelled u = (e, d')) (hok : e.failure = none) :
    ∃ r, processUnit d cwd o cancelled u = .ok r ∧ e.result = some r ∧ Synced d d' cwd r := by
  unfold regenerate at h
  cases hpass : processUnit d cwd o cancelled u with
  | error f =>
    rw [hpass] at h
    cases h
    cases hok
  | ok r =>
    rw [hpass] at h
    dsimp only at h
    cases hsync : sync d cwd r with
    | mk outcome next =>
      rw [hsync] at h
      cases outcome with
      | error f =>
        cases h
        cases hok
      | ok removed =>
        cases h
        exact ⟨r, rfl, rfl, synced_of_sync (homed_of_processUnit hdir hpass).clean hsync⟩

/-- One unit after another. -/
theorem regenerateAll_cons {rest : List String}
    (h : regenerateAll cwd o cancelled d (u :: rest) = (events, d')) :
    ∃ e d₁ more, regenerate d cwd o cancelled u = (e, d₁) ∧
      regenerateAll cwd o cancelled d₁ rest = (more, d') ∧ events = e :: more := by
  rw [regenerateAll] at h
  cases h
  exact ⟨_, _, _, rfl, rfl, rfl⟩

/-- What can be read of an output that was brought into step. It is the source of the builders,
if there are any, and otherwise nothing. -/
theorem Synced.read (h : Synced d d' cwd r) (hclean : IsClean r.output) :
    (r.source ≠ [] → d'.read cwd r.output = .ok r.source) ∧
      (r.source = [] → ∀ content, d'.read cwd r.output ≠ .ok content) := by
  cases h with
  | written hsource _ hstored =>
    exact ⟨fun _ => Disk.read_eq_ok_iff.2 ⟨hclean.ne_empty, hstored.directory, hstored.file⟩,
      fun hnil => absurd hnil hsource⟩
  | absent hsource hstat hsame =>
    refine ⟨fun hne => absurd hsource hne, fun _ content hread => ?_⟩
    rw [hsame, Disk.read, hstat] at hread
    cases hread
  | removed hsource hremoved =>
    exact ⟨fun hne => absurd hsource hne, fun _ => hremoved.read_ne_ok⟩

/-! ## What a watch asks for

The last unit is processed on the disk that all others have left, and what it does to its output
is not undone by any. -/

/-- The last unit is regenerated last. By induction on the units before it. -/
theorem regenerateAll_concat {front : List String}
    (h : regenerateAll cwd o cancelled d (front ++ [u]) = (events, d')) :
    ∃ d₁ e more, regenerate d₁ cwd o cancelled u = (e, d') ∧ events = more ++ [e] := by
  induction front generalizing d events with
  | nil =>
    obtain ⟨e, d₁, more, hregenerate, hmore, rfl⟩ := regenerateAll_cons h
    cases hmore
    exact ⟨d, e, [], hregenerate, rfl⟩
  | cons v front ih =>
    obtain ⟨e, d₁, more, -, hmore, rfl⟩ := regenerateAll_cons h
    obtain ⟨d₂, e', more', hlast, rfl⟩ := ih hmore
    exact ⟨d₂, e', e :: more', hlast, rfl⟩

/-- **A watch asks for nothing but the directories of its units.** It fails exactly if one of
them is not there, and then nothing has changed. Whether units share an output makes no
difference: the last unit has its way, whatever the ones before have written there. -/
theorem watch_asks_for_directories (d : Disk) (cwd : String) (o : Options) (cancelled : Bool)
    (units : List String) (hdir : o.outputDir ≠ "") :
    ((∃ f, (watch d cwd o cancelled units).1 = .error f) ↔
      ∃ u ∈ units, d.holds cwd (Path.dir (Path.resolve cwd u)) = false) ∧
    (∀ f d', watch d cwd o cancelled units = (.error f, d') → d' = d) ∧
    ∀ front u, units = front ++ [u] → ∀ w events e d',
      watch d cwd o cancelled units = (.ok (w, events ++ [e]), d') → e.failure = none →
      ∃ r, e.result = some r ∧ (r.source ≠ [] → d'.read cwd (o.output u) = .ok r.source) ∧
        (r.source = [] → ∀ content, d'.read cwd (o.output u) ≠ .ok content) := by
  refine ⟨?_, fun f d' h => (watch_eq_error h).2, fun front u hlast w events e d' h hok => ?_⟩
  · rw [← startWatch_eq_error_iff, watch]
    cases startWatch d cwd units with
    | error f => exact ⟨fun _ => ⟨f, rfl⟩, fun _ => ⟨f, rfl⟩⟩
    | ok watched => exact ⟨fun ⟨_, h⟩ => (by cases h), fun ⟨_, h⟩ => (by cases h)⟩
  · obtain ⟨d₁, e', more, hregenerate, heq⟩ := regenerateAll_concat (hlast ▸ watch_eq_ok h)
    obtain ⟨-, rfl⟩ := List.append_inj' heq rfl |>.imp_right List.singleton_inj.1
    obtain ⟨r, hpass, hresult, hsynced⟩ := synced_of_regenerate hdir hregenerate hok
    refine ⟨r, hresult, ?_⟩
    rw [← (processUnit_eq_ok hpass).2]
    exact hsynced.read (homed_of_processUnit hdir hpass).clean

/-- An interface and a class in files of one name. -/
def twinDisk : Disk :=
  ⟨[(["e.ts", "a", "w"], .file (Text.ofString "export interface A \x7b a: string \x7d")),
    (["e.ts", "b", "w"], .file (Text.ofString "export class B \x7b\x7d")),
    (["a", "w"], .directory), (["b", "w"], .directory), (["w"], .directory)]⟩

/-- The class has the last word, so there are no builders for the interface. -/
theorem watch_asks_for_directories_twins :
    headedOptions.outputDir ≠ "" ∧
      ∃ w events d', watch twinDisk "/w" headedOptions false ["a/e.ts", "b/e.ts"]
      = (.ok (w, events), d') ∧
        ∀ content, d'.read "/w" "out/e.builder.ts" ≠ .ok content := by
  have hdir : headedOptions.outputDir ≠ "" := by decide
  refine ⟨hdir, ?_⟩
  obtain ⟨hstart, -, hlast⟩ :=
    watch_asks_for_directories twinDisk "/w" headedOptions false ["a/e.ts", "b/e.ts"] hdir
  -- what the last regeneration comes to: it does not fail, and there are no builders
  have hevent : (watch twinDisk "/w" headedOptions false ["a/e.ts", "b/e.ts"]).1.map (fun x =>
      x.2.getLast?.map fun e => (e.failure, e.result.map (·.source.isEmpty))) =
      .ok (some (none, some true)) := by decide +kernel
  cases hwatch : watch twinDisk "/w" headedOptions false ["a/e.ts", "b/e.ts"] with
  | mk outcome d' =>
    rw [hwatch] at hevent
    cases outcome with
    | error f => cases hevent
    | ok started =>
      obtain ⟨w, events⟩ := started
      obtain ⟨e, he, heq⟩ := Option.map_eq_some_iff.1 (Except.ok.inj hevent)
      obtain ⟨hok, hsource⟩ := Prod.mk.inj heq
      obtain ⟨front, rfl⟩ := List.getLast?_eq_some_iff.1 he
      obtain ⟨r, hresult, -, habsent⟩ := hlast ["a/e.ts"] "b/e.ts" rfl w front e d' hwatch hok
      rw [hresult] at hsource
      have houtput : headedOptions.output "b/e.ts" = "out/e.builder.ts" := by decide +kernel
      exact ⟨w, _, d', rfl, houtput ▸ habsent (List.isEmpty_iff.1 (Option.some.inj hsource))⟩

/-- Units that share an output are refused when they are processed, but not when they are
watched. -/
theorem not_watch_refuses_collision :
    ¬ ∀ (d : Disk) (cwd : String) (o : Options) (units : List String), o.outputDir ≠ "" →
      (∃ first second output,
        processUnits d cwd o false units = .error (.collision first second output)) →
      ∃ f, watch d cwd o false units = (.error f, d) := by
  intro hall
  have hcollision : headedOptions.checkCollisions ["a/e.ts", "b/e.ts"] =
      .error (.collision "a/e.ts" "b/e.ts" "out/e.builder.ts") := by decide +kernel
  obtain ⟨f, hf⟩ := hall twinDisk "/w" headedOptions ["a/e.ts", "b/e.ts"] (by decide)
    ⟨"a/e.ts", "b/e.ts", "out/e.builder.ts", by rw [processUnits, hcollision]; rfl⟩
  -- the directories are there
  have hstart : (startWatch twinDisk "/w" ["a/e.ts", "b/e.ts"]).toBool = true := by
    decide +kernel
  rw [(watch_eq_error hf).1] at hstart
  cases hstart

end Exemplar.Pass
