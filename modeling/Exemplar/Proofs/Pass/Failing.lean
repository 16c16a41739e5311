import Exemplar.Proofs.Pass.Checking

/-!
# When processing units fails

Processing fails as a whole or not at all: one unit that cannot be read, or is no source, or
shares its output with another unit is enough, and so is a run that was cancelled. `Hindered`
lists these reasons, and nothing else makes processing fail.

The reasons do not depend on the order of the units, although which of them is reported does. So
that processing fails is something that can be said of the units as a set, and that is what is
used where units come in another order.
-/

namespace Exemplar.Pass

variable {d : Disk} {cwd : String} {o : Options} {cancelled : Bool} {units : List String}

/-- What keeps units from being processed. -/
inductive Hindered (d : Disk) (cwd : String) (o : Options)
    (cancelled : Bool) (units : List String) :
    Prop
  /-- The run was cancelled, and there is something to do. -/
  | canceled (h : cancelled = true) (hunits : units ≠ [])
  /-- A unit is missing or cannot be read. -/
  | unreadable {u reason : String} (hu : u ∈ units) (h : d.read cwd u = .error reason)
  /-- A unit has a lexical error or a syntax error. -/
  | faulty {u : String} {content : Text} {f : Failure} (hu : u ∈ units)
    (hread : d.read cwd u = .ok content) (h : Tree.SourceUnit.read u content = .error f)
  /-- Two units would write the same file. -/
  | colliding {u v : String} (hdir : o.outputDir ≠ "") (hu : u ∈ units) (hv : v ∈ units)
    (hne : u ≠ v) (h : o.output u = o.output v)

/-! ## Collisions

The check goes through the units with a table of the outputs it has met, and stops at an output
that belongs to another unit. -/

/-- A collision that is found is one of two units. The units seen before are among `all`, with
their outputs. -/
theorem exists_of_collisionAfter {output : String → String} {seen : List (String × String)}
    {all : List String} {found : String × String × String}
    (hseen : ∀ x ∈ seen, x.1 = output x.2 ∧ x.2 ∈ all) (hunits : units ⊆ all)
    (h : collisionAfter output seen units = some found) :
    ∃ u ∈ all, ∃ v ∈ all, u ≠ v ∧ output u = output v := by
  induction units generalizing seen with
  | nil => cases h
  | cons unit rest ih =>
    have hunit := hunits List.mem_cons_self
    have hrest : rest ⊆ all := fun v hv => hunits (List.mem_cons_of_mem _ hv)
    rw [collisionAfter] at h
    cases hlookup : seen.lookup (output unit) with
    | some other =>
      rw [hlookup] at h
      dsimp only at h
      split at h
      · exact ih hseen hrest h
      · rename_i hne
        obtain ⟨l₁, l₂, rfl, -⟩ := List.lookup_eq_some_iff.1 hlookup
        have hother := hseen _ (List.mem_append_right _ List.mem_cons_self)
        exact ⟨unit, hunit, other, hother.2, fun heq => hne (beq_iff_eq.2 heq.symm), hother.1⟩
    | none =>
      rw [hlookup] at h
      exact ih (List.forall_mem_cons.2 ⟨⟨rfl, hunit⟩, hseen⟩) hrest h

/-! ## Passes

A pass depends on its unit alone. Passes over units fail if one of them does, and the first
failure is returned. -/

/-- Processing that succeeds has passed each unit, and each result comes from a unit. -/
theorem passes_of_processUnits {results : List UnitResult}
    (h : processUnits d cwd o cancelled units = .ok results) :
    (∀ u ∈ units, ∃ r, processUnit d cwd o cancelled u = .ok r) ∧
      ∀ r ∈ results, ∃ u ∈ units, processUnit d cwd o cancelled u = .ok r := by
  have hpasses :
      List.Forall₂ (fun u r => processUnit d cwd o cancelled u = .ok r) units results := by
    unfold processUnits at h
    cases hcollision : o.checkCollisions units with
    | error f => rw [hcollision] at h; cases h
    | ok _ => rw [hcollision] at h; exact forall₂_of_passes h
  clear h
  induction hpasses with
  | nil => exact ⟨fun _ hu => absurd hu List.not_mem_nil, fun _ hr => absurd hr List.not_mem_nil⟩
  | @cons u r units results hpass _ ih =>
    constructor
    · exact List.forall_mem_cons.2 ⟨⟨r, hpass⟩, ih.1⟩
    · refine List.forall_mem_cons.2 ⟨⟨u, List.mem_cons_self, hpass⟩, fun r' hr' => ?_⟩
      obtain ⟨u', hu', hpass'⟩ := ih.2 r' hr'
      exact ⟨u', List.mem_cons_of_mem _ hu', hpass'⟩

/-- Passes fail because one of them does. -/
theorem exists_of_passes_error {f : Failure} (h : passes d cwd o cancelled units = .error f) :
    ∃ u ∈ units, ∃ f, processUnit d cwd o cancelled u = .error f := by
  induction units with
  | nil => cases h
  | cons u rest ih =>
    cases hu : processUnit d cwd o cancelled u with
    | error f => exact ⟨u, List.mem_cons_self, f, hu⟩
    | ok r =>
      rw [passes_cons, hu] at h
      cases hrest : passes d cwd o cancelled rest with
      | ok rs => rw [Except.bind, hrest] at h; cases h
      | error f' =>
        rw [Except.bind, hrest] at h
        cases h
        obtain ⟨v, hv, hfail⟩ := ih hrest
        exact ⟨v, List.mem_cons_of_mem _ hv, hfail⟩

/-- A pass that fails was cancelled, or its unit cannot be read, or is no source. -/
theorem hindered_of_processUnit {u : String} {f : Failure} (hu : u ∈ units)
    (h : processUnit d cwd o cancelled u = .error f) : Hindered d cwd o cancelled units := by
  unfold processUnit loadUnit at h
  split at h
  · rename_i hcancelled
    exact .canceled hcancelled fun hnil => by rw [hnil] at hu; cases hu
  · cases hread : d.read cwd u with
    | error reason => exact .unreadable hu hread
    | ok content =>
      rw [hread] at h
      dsimp only at h
      cases hunit : Tree.SourceUnit.read u content with
      | error f => exact .faulty hu hread hunit
      | ok unit => rw [hunit] at h; cases h

/-- A pass over a unit that succeeds was not cancelled, and its unit is a source that can be
read. -/
theorem exists_unit_of_processUnit {u : String} {r : UnitResult}
    (h : processUnit d cwd o cancelled u = .ok r) :
    cancelled = false ∧
      ∃ content unit, d.read cwd u = .ok content ∧
      Tree.SourceUnit.read u content = .ok unit := by
  unfold processUnit loadUnit at h
  split at h
  · cases h
  · rename_i hcancelled
    cases hread : d.read cwd u with
    | error reason => rw [hread] at h; cases h
    | ok content =>
      rw [hread] at h
      dsimp only at h
      cases hunit : Tree.SourceUnit.read u content with
      | error f => rw [hunit] at h; cases h
      | ok unit => exact ⟨Bool.eq_false_iff.2 hcancelled, content, unit, rfl, hunit⟩

/-- **Units are not processed exactly where something hinders it.** What fails has a reason: the
check for collisions has found two units, or a pass has failed. Conversely, if processing
succeeded, each unit was passed, which none of the reasons leaves possible. -/
theorem processUnits_eq_error_iff :
    (∃ f, processUnits d cwd o cancelled units = .error f) ↔
    Hindered d cwd o cancelled units := by
  constructor
  · rintro ⟨f, h⟩
    unfold processUnits at h
    -- Two units collide, or a pass fails.
    cases hcheck : o.checkCollisions units with
    | ok _ =>
      rw [hcheck] at h
      obtain ⟨u, hu, f, hfail⟩ := exists_of_passes_error h
      exact hindered_of_processUnit hu hfail
    | error f' =>
      unfold Options.checkCollisions at hcheck
      split at hcheck
      · cases hcheck
      · rename_i hdir
        cases hcollision :
          collisionAfter (fun u => outputPath u o.outputDir o.suffix) [] units with
        | none => rw [hcollision] at hcheck; cases hcheck
        | some found =>
          obtain ⟨u, hu, v, hv, hne, heq⟩ := exists_of_collisionAfter
            (fun _ hx => absurd hx List.not_mem_nil) (List.Subset.refl units) hcollision
          refine .colliding (by simpa using hdir) hu hv hne ?_
          rw [Options.output, Options.output, if_neg hdir, if_neg hdir]
          exact heq
  · intro hhindered
    cases hresults : processUnits d cwd o cancelled units with
    | error f => exact ⟨f, rfl⟩
    | ok results =>
      have hpasses := (passes_of_processUnits hresults).1
      exfalso
      cases hhindered with
      | canceled h hunits =>
        obtain ⟨u, hu⟩ := List.exists_mem_of_ne_nil _ hunits
        obtain ⟨_, hpass⟩ := hpasses u hu
        rw [(exists_unit_of_processUnit hpass).1] at h
        cases h
      | unreadable hu h =>
        obtain ⟨_, hpass⟩ := hpasses _ hu
        obtain ⟨-, content, unit, hread, -⟩ := exists_unit_of_processUnit hpass
        rw [hread] at h
        cases h
      | faulty hu hread h =>
        obtain ⟨_, hpass⟩ := hpasses _ hu
        obtain ⟨-, content, unit, hread', hunit⟩ := exists_unit_of_processUnit hpass
        rw [hread] at hread'
        cases hread'
        rw [hunit] at h
        cases h
      | colliding hdir hu hv hne h =>
        rw [Options.output, Options.output, if_neg (by simpa using hdir),
          if_neg (by simpa using hdir)] at h
        exact hne (eq_of_output_eq (processUnits_eq_ok hdir hresults).1 hu hv h)

/-- **Units with outputs of their own are processed if each of them can be.** None of the
reasons is left. -/
theorem exists_processUnits (hpasses : ∀ u ∈ units, ∃ r, processUnit d cwd o cancelled u = .ok r)
    (houtputs : ∀ u ∈ units, ∀ v ∈ units, o.output u = o.output v → u = v) :
    ∃ results, processUnits d cwd o cancelled units = .ok results := by
  cases hresults : processUnits d cwd o cancelled units with
  | ok results => exact ⟨results, rfl⟩
  | error f =>
    -- If processing failed, there would be a reason for it. Each of them contradicts what is
    -- known.
    exfalso
    cases processUnits_eq_error_iff.1 ⟨f, hresults⟩ with
    | canceled h hunits =>
      obtain ⟨u, hu⟩ := List.exists_mem_of_ne_nil _ hunits
      obtain ⟨_, hpass⟩ := hpasses u hu
      rw [(exists_unit_of_processUnit hpass).1] at h
      cases h
    | unreadable hu hread =>
      obtain ⟨_, hpass⟩ := hpasses _ hu
      obtain ⟨-, content, unit, hread', -⟩ := exists_unit_of_processUnit hpass
      rw [hread] at hread'
      cases hread'
    | faulty hu hread hfault =>
      obtain ⟨_, hpass⟩ := hpasses _ hu
      obtain ⟨-, content, unit, hread', hunit⟩ := exists_unit_of_processUnit hpass
      rw [hread] at hread'
      cases hread'
      rw [hfault] at hunit
      cases hunit
    | colliding _ hu hv hne heq => exact hne (houtputs _ hu _ hv heq)

end Exemplar.Pass
