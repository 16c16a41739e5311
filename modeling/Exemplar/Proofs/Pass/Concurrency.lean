import Exemplar.Pass.Group
import Exemplar.Proofs.Pass.Failing

/-!
# Passes at the same time, and one by one

In whatever order the passes of a run take their steps, the run comes to an end after a bounded
number of them, and what it returns could have been returned by passes that go on one by one:
the results in the order of the units if all units succeed, and otherwise a failure that one of
the units has of its own. The failures of passes that were only told to stop are never returned,
since there is a recorded failure by then.

All this is read off one invariant (`Group.Sound`), which each step preserves. That a run does
end is a matter of counting: every pass takes three steps at most.

A run is given by its passes, each waiting, started, going on or ended, and by what was
recorded: the first failure, whether the run was cancelled, whether that came from outside, and
whether the parser broke down. A pass looks once whether the run was cancelled, and from there
on its outcome is settled (`processUnit`). So the invariant says of each pass what its stage
means: a result in its slot is that of its unit, a pass that ended without one has left a
failure behind, and one that was told to stop was told so because the run was cancelled. And the
run is cancelled for a failure, or from outside.

For the last part, that the passes one by one are among the runs, a run is built in which each
pass takes its steps before the next one starts.
-/

namespace Exemplar.Pass

variable {d : Disk} {cwd : String} {o : Options} {units : List String} {limit processors n : Nat}
  {u : String} {f : Failure} {r : UnitResult}

/-! ## Passes of their own -/

/-- A pass that was not told to stop does not say so. -/
theorem processUnit_ne_canceled : processUnit d cwd o false u ≠ .error .canceled := by
  unfold processUnit loadUnit
  rw [if_neg Bool.false_ne_true]
  cases d.read cwd u with
  | error reason => exact fun h => (by cases h)
  | ok content =>
    dsimp only
    unfold Tree.SourceUnit.read
    cases Tree.SourceUnit.parse u content with
    | ok unit => exact fun h => (by cases h)
    | error halt =>
      dsimp only
      cases halt.diagnostic? u with
      | none => exact fun h => (by cases h)
      | some diagnostic => exact fun h => (by cases h)

/-- A pass that was told to stop does. -/
theorem processUnit_true : processUnit d cwd o true u = .error .canceled := by
  unfold processUnit
  rw [if_pos rfl]

/-- At least one pass may go on. -/
theorem limit_pos (o : Options) (hprocessors : 0 < processors) : 0 < o.limit processors := by
  unfold Options.limit
  split <;> omega

/-- The number of steps a pass has before it. -/
def Job.left (j : Job) : Nat :=
  match j.stage with
  | .waiting => 3
  | .started => 2
  | .running _ => 1
  | .ended _ => 0

namespace Group

variable {g g' next : Group} {stage stage' : Stage} {front back : List Job}

/-! ## What every run keeps to

The invariant holds when all passes are waiting, and each step preserves it. A step moves one
pass, or cancels the run. -/

/-- What can be said of a run at any time. -/
structure Sound (d : Disk) (cwd : String) (o : Options) (limit : Nat)
    (units : List String) (g : Group) :
    Prop where
  /-- There is one pass for each unit, in order. -/
  order : g.jobs.map Job.unit = units
  /-- No more passes go on than are allowed. -/
  bound : g.inFlight ≤ limit
  /-- What is in a slot is the result of the unit. -/
  slots : ∀ j ∈ g.jobs, ∀ r, j.stage = .ended (some r) → processUnit d cwd o false j.unit = .ok r
  /-- Where a pass ended without a result, a failure was recorded. -/
  failed : ∀ j ∈ g.jobs, j.stage = .ended none → g.failure ≠ none
  /-- Passes that were told to stop were told so by the run. -/
  told : ∀ j ∈ g.jobs, j.stage = .running true → g.cancelled = true
  /-- The run was cancelled from outside, or by a failure. -/
  cause : g.cancelled = true → g.interrupted = true ∨ g.failure ≠ none
  /-- The recorded failure is one that a unit has of its own, unless the run was cancelled from
  outside. -/
  own : g.interrupted = false → ∀ f, g.failure = some f →
    f ≠ .canceled ∧ ∃ u ∈ units, processUnit d cwd o false u = .error f
  /-- If the parser broke down, it does so on one of the units. -/
  broken : g.broken = true → ∃ u ∈ units, processUnit d cwd o false u = .error .breakdown

/-- When nothing has happened, all of it holds. -/
theorem sound_start (d : Disk) (cwd : String) (o : Options) (limit : Nat) (units : List String) :
    Sound d cwd o limit units (start units) := by
  have hwaiting : ∀ j ∈ (start units).jobs, j.stage = .waiting := by
    intro j hj
    obtain ⟨u, -, rfl⟩ := List.mem_map.1 hj
    rfl
  have hflight : (start units).inFlight = 0 := by
    rw [inFlight, List.countP_eq_zero]
    intro j hj
    rw [Job.inFlight, hwaiting j hj]
    exact Bool.false_ne_true
  refine ⟨?_, by rw [hflight]; exact Nat.zero_le _, ?_, ?_, ?_, fun h => (by cases h),
    fun _ f h => (by cases h), fun h => (by cases h)⟩
  · rw [start, List.map_map]
    exact List.map_id _
  · intro j hj r h
    rw [hwaiting j hj] at h
    cases h
  all_goals
    intro j hj h
    rw [hwaiting j hj] at h
    cases h

/-- What can be said of a run can still be said when one of its passes has moved, if it can be
said of that pass and of what was recorded. -/
theorem Sound.replace (h : Sound d cwd o limit units g)
    (hjobs : g.jobs = front ++ ⟨u, stage⟩ :: back)
    (hcancelled : next.cancelled = g.cancelled) (hinterrupted : next.interrupted = g.interrupted)
    (hkeeps : g.failure ≠ none → next.failure ≠ none)
    (hbound : (front ++ ⟨u, stage'⟩ :: back).countP Job.inFlight ≤ limit)
    (hslot : ∀ r, stage' = .ended (some r) → processUnit d cwd o false u = .ok r)
    (hfailed : stage' = .ended none → next.failure ≠ none)
    (htold : stage' = .running true → g.cancelled = true)
    (hown : g.interrupted = false → ∀ f, next.failure = some f →
      f ≠ .canceled ∧ ∃ u ∈ units, processUnit d cwd o false u = .error f)
    (hbroken : next.broken = true → ∃ u ∈ units,
      processUnit d cwd o false u = .error .breakdown) :
    Sound d cwd o limit units { next with jobs := front ++ ⟨u, stage'⟩ :: back } := by
  -- Of the jobs only the one that moved is new.
  have hmem : ∀ j ∈ front ++ ⟨u, stage'⟩ :: back, j = ⟨u, stage'⟩ ∨ j ∈ g.jobs := by
    intro j hj
    rw [hjobs]
    rcases List.mem_append.1 hj with hj | hj
    · exact .inr (List.mem_append_left _ hj)
    · rcases List.mem_cons.1 hj with hj | hj
      · exact .inl hj
      · exact .inr (List.mem_append_right _ (List.mem_cons_of_mem _ hj))
  refine ⟨?_, hbound, fun j hj => ?_, fun j hj => ?_, fun j hj => ?_,
    fun hc => ?_, fun hi => ?_, hbroken⟩
  · rw [← h.order, hjobs, List.map_append, List.map_append]
    rfl
  · rcases hmem j hj with rfl | hj
    · exact hslot
    · exact h.slots j hj
  · rcases hmem j hj with rfl | hj
    · exact hfailed
    · exact fun hstage => hkeeps (h.failed j hj hstage)
  · rw [hcancelled]
    rcases hmem j hj with rfl | hj
    · exact htold
    · exact h.told j hj
  · rw [hcancelled] at hc
    rw [hinterrupted]
    exact (h.cause hc).imp_right hkeeps
  · rw [hinterrupted] at hi
    exact hown hi

/-- A pass that moves makes one more go on at most, and none more if it went on before. -/
theorem countP_inFlight_le (hjobs : g.jobs = front ++ ⟨u, stage⟩ :: back) :
    (front ++ ⟨u, stage'⟩ :: back).countP Job.inFlight ≤ g.inFlight + 1 ∧
      (Job.inFlight ⟨u, stage⟩ = true →
        (front ++ ⟨u, stage'⟩ :: back).countP Job.inFlight ≤ g.inFlight) := by
  rw [inFlight, hjobs, List.countP_append, List.countP_append,
    List.countP_cons, List.countP_cons]
  constructor
  · split <;> omega
  · intro hflight
    rw [if_pos hflight]
    split <;> omega

/-- A pass that was told to stop has no result. -/
theorem eq_false_of_processUnit {cancelled : Bool}
    (h : processUnit d cwd o cancelled u ≠ .error .canceled) :
    cancelled = false := by
  cases cancelled with
  | false => rfl
  | true => exact absurd processUnit_true h

/-- **One move of a pass preserves what can be said of a run.** The cases are those of a pass:
it starts, looks whether it was cancelled, succeeds, fails, or breaks down. A failure is
recorded if it is the first; if the pass was told to stop, it is not the first, unless the run
was cancelled from outside. -/
theorem Sound.of_move (h : Sound d cwd o limit units g) (hlive : g.broken = false)
    (hjobs : g.jobs = front ++ ⟨u, stage⟩ :: back)
    (hmove : Move d cwd o limit g u stage stage' next) :
    Sound d cwd o limit units { next with jobs := front ++ ⟨u, stage'⟩ :: back } := by
  have hu : u ∈ units := by
    rw [← h.order, hjobs, List.map_append]
    exact List.mem_append_right _ List.mem_cons_self
  have hjob : ⟨u, stage⟩ ∈ g.jobs := by
    rw [hjobs]
    exact List.mem_append_right _ List.mem_cons_self
  have hbroken : g.broken = true →
      ∃ u ∈ units, processUnit d cwd o false u = .error .breakdown :=
    fun hb => by rw [hlive] at hb; cases hb
  have hbound : Job.inFlight ⟨u, stage⟩ = true →
      (front ++ ⟨u, stage'⟩ :: back).countP Job.inFlight ≤ limit := fun hflight =>
    ((countP_inFlight_le hjobs).2 hflight).trans h.bound
  cases hmove with
  | launch hlimit =>
    exact h.replace hjobs rfl rfl id
      ((countP_inFlight_le hjobs).1.trans hlimit) nofun nofun nofun h.own hbroken
  | look =>
    exact h.replace hjobs rfl rfl id (hbound rfl) nofun nofun
      (fun heq => Stage.running.inj heq) h.own hbroken
  | @succeed cancelled r hpass =>
    obtain rfl := eq_false_of_processUnit (by rw [hpass]; nofun)
    refine h.replace hjobs rfl rfl id (hbound rfl) (fun r' heq => ?_) nofun nofun h.own hbroken
    cases heq
    exact hpass
  | @fail cancelled f hpass hf =>
    have hrecorded : (g.record f).failure ≠ none := by
      rw [record]
      cases g.failure <;> simp
    refine h.replace hjobs rfl rfl (fun _ => hrecorded) (hbound rfl) nofun
      (fun _ => hrecorded) nofun
      (fun hi f' hf' => ?_) hbroken
    cases hfailure : g.failure with
    | some first =>
      -- the first failure stays
      rw [record, hfailure] at hf'
      exact h.own hi f' (by rw [hfailure]; exact hf')
    | none =>
      rw [record, hfailure] at hf'
      obtain rfl : f = f' := Option.some.inj hf'
      cases cancelled with
      | false => exact ⟨fun heq => processUnit_ne_canceled (heq ▸ hpass), u, hu, hpass⟩
      | true =>
        -- the run had been cancelled, so there was a failure
        rcases h.cause (h.told _ hjob rfl) with hc | hc
        · rw [hi] at hc
          cases hc
        · exact absurd hfailure hc
  | @breakDown cancelled hpass =>
    obtain rfl := eq_false_of_processUnit (by rw [hpass]; nofun)
    exact h.replace hjobs rfl rfl id (hbound rfl) nofun nofun nofun h.own fun _ => ⟨u, hu, hpass⟩

/-- **One step of a run preserves what can be said of it.** Cancelling makes no claim about
passes, and there is a failure for it, or it comes from outside. -/
theorem Sound.of_step (h : Sound d cwd o limit units g) (hstep : Step d cwd o limit g g') :
    Sound d cwd o limit units g' := by
  cases hstep with
  | pass hlive hjobs hmove => exact h.of_move hlive hjobs hmove
  | cancel _ hfailure _ =>
    exact ⟨h.order, h.bound, h.slots, h.failed, fun _ _ _ => rfl,
      fun _ => .inr hfailure, h.own, h.broken⟩
  | interrupt _ _ =>
    exact ⟨h.order, h.bound, h.slots, h.failed, fun _ _ _ => rfl,
      fun _ => .inl rfl, nofun, h.broken⟩

/-- **What every run keeps to.** By induction on the steps of the run. -/
theorem Run.sound (h : Run d cwd o limit units n g) : Sound d cwd o limit units g := by
  induction h with
  | start => exact sound_start d cwd o limit units
  | step _ hstep ih => exact ih.of_step hstep

/-! ## Coming to an end

Each step takes one off a number, and as long as a pass has not ended there is a step to take. -/

/-- The number of steps passes have before them. -/
def leftOf : List Job → Nat
  | [] => 0
  | j :: rest => j.left + leftOf rest

/-- The number of steps a run has before it: those of its passes, and one for each way to be
cancelled or to break down. -/
def left (g : Group) : Nat :=
  leftOf g.jobs + (!g.cancelled).toNat + (!g.interrupted).toNat + (!g.broken).toNat

/-- The steps of some passes and those of the others. -/
theorem leftOf_append (front back : List Job) :
    leftOf (front ++ back) = leftOf front + leftOf back := by
  induction front with
  | nil => exact (Nat.zero_add _).symm
  | cons j front ih => rw [List.cons_append, leftOf, ih, leftOf, Nat.add_assoc]

/-- **Every step brings a run nearer to its end.** A pass moves on, or one of the ways to end
the run that had not been taken is taken. -/
theorem left_lt_of_step (h : Step d cwd o limit g g') : g'.left < g.left := by
  cases h with
  | pass hlive hjobs hmove =>
    rw [left, left, hjobs, leftOf_append, leftOf_append, leftOf, leftOf]
    cases hmove with
    | breakDown hpass =>
      rw [hlive]
      simp only [Bool.not_true, Bool.not_false, Bool.toNat_true, Bool.toNat_false]
      omega
    | _ =>
      simp only [Job.left, record]
      omega
  | cancel _ _ hcancelled =>
    rw [left, left, hcancelled]
    simp only [Bool.not_true, Bool.not_false, Bool.toNat_true, Bool.toNat_false]
    omega
  | interrupt _ hinterrupted =>
    rw [left, left, hinterrupted]
    have hle : (!true).toNat ≤ (!g.cancelled).toNat := Nat.zero_le _
    simp only [Bool.not_true, Bool.not_false, Bool.toNat_true, Bool.toNat_false] at hle ⊢
    omega

/-- **A run takes three steps for each unit at most**, and three more. -/
theorem Run.length_le (h : Run d cwd o limit units n g) : n ≤ 3 * units.length + 3 := by
  have hstart : (Group.start units).left = 3 * units.length + 3 := by
    have hwaiting : ∀ us : List String, leftOf (us.map (⟨·, .waiting⟩)) = 3 * us.length := by
      intro us
      induction us with
      | nil => rfl
      | cons u us ih =>
        rw [List.map_cons, leftOf, ih, List.length_cons]
        simp only [Job.left]
        omega
    rw [left, Group.start, hwaiting]
    rfl
  have hleft : n + g.left ≤ 3 * units.length + 3 := by
    induction h with
    | start => rw [hstart, Nat.zero_add]
    | step _ hstep ih =>
      have hlt := left_lt_of_step hstep
      omega
  omega

/-- A pass that goes on has a next step. -/
theorem exists_step_of_inFlight {j : Job} (hlive : g.broken = false) (hj : j ∈ g.jobs)
    (hflight : j.inFlight = true) :
    ∃ g', Step d cwd o limit g g' ∧ g'.interrupted = g.interrupted := by
  obtain ⟨front, back, hjobs⟩ := List.append_of_mem hj
  obtain ⟨u, stage⟩ := j
  cases stage with
  | waiting => cases hflight
  | ended slot => cases hflight
  | started => exact ⟨_, .pass hlive hjobs .look, rfl⟩
  | running cancelled =>
    cases hpass : processUnit d cwd o cancelled u with
    | ok r => exact ⟨_, .pass hlive hjobs (.succeed hpass), rfl⟩
    | error f =>
      by_cases hf : f = .breakdown
      · exact ⟨_, .pass hlive hjobs (.breakDown (hf ▸ hpass)), rfl⟩
      · exact ⟨_, .pass hlive hjobs (.fail hpass hf), rfl⟩

/-- **A run can go on until all its passes have ended**, unless the parser breaks down. If a
pass goes on, it has a next step. If none does, there is room for one to start. -/
theorem exists_step (hlimit : 0 < limit) (hlive : g.broken = false)
    (hopen : ¬ g.jobs.all Job.hasEnded = true) :
    ∃ g', Step d cwd o limit g g' ∧ g'.interrupted = g.interrupted := by
  by_cases hflight : ∃ j ∈ g.jobs, j.inFlight = true
  · obtain ⟨j, hj, hflight⟩ := hflight
    exact exists_step_of_inFlight hlive hj hflight
  · -- no pass goes on, so one that has not ended can be started
    have hnone : g.inFlight = 0 := by
      rw [inFlight, List.countP_eq_zero]
      exact fun j hj hj' => hflight ⟨j, hj, hj'⟩
    rw [List.all_eq_true] at hopen
    push Not at hopen
    obtain ⟨⟨u, stage⟩, hj, hended⟩ := hopen
    obtain ⟨front, back, hjobs⟩ := List.append_of_mem hj
    cases stage with
    | waiting => exact ⟨_, .pass hlive hjobs (.launch (by rw [hnone]; exact hlimit)), rfl⟩
    | ended slot => exact absurd rfl hended
    | started => exact absurd ⟨_, hj, rfl⟩ hflight
    | running cancelled => exact absurd ⟨_, hj, rfl⟩ hflight

/-! ## What is returned

When all passes have ended and no failure was recorded, every slot holds a result. When there is
one, it is a failure of a unit. -/

/-- A run returns when it is not broken and all its passes have ended. -/
theorem outcome?_eq_some {outcome : Except Failure (List (Option UnitResult))}
    (h : g.outcome? = some outcome) :
    g.jobs.all Job.hasEnded = true ∧
      outcome = match g.failure with
        | some f => .error f
        | none => .ok (g.jobs.map Job.slot) := by
  unfold outcome? at h
  split at h
  · cases h
  split at h
  · rename_i hended
    refine ⟨hended, ?_⟩
    cases hfailure : g.failure with
    | some f => rw [hfailure] at h; exact (Option.some.inj h).symm
    | none => rw [hfailure] at h; exact (Option.some.inj h).symm
  · cases h

/-- The slots of passes that ended without a failure, one for each unit. -/
theorem Sound.exists_results (h : Sound d cwd o limit units g)
    (hended : g.jobs.all Job.hasEnded = true)
    (hfailure : g.failure = none) :
    ∃ results : List UnitResult, g.jobs.map Job.slot = results.map some ∧
      List.Forall₂ (fun u r => processUnit d cwd o false u = .ok r) units results := by
  -- No pass ended empty, or a failure would have been recorded.
  have hslot : ∀ j ∈ g.jobs, ∃ r, j.slot = some r ∧
      processUnit d cwd o false j.unit = .ok r := by
    intro j hj
    have hj' := List.all_eq_true.1 hended j hj
    obtain ⟨u, stage⟩ := j
    cases stage with
    | ended slot =>
      cases slot with
      | none => exact absurd hfailure (h.failed _ hj rfl)
      | some r => exact ⟨r, rfl, h.slots _ hj r rfl⟩
    | _ => cases hj'
  rw [← h.order]
  -- From here on only the jobs matter, one by one.
  clear h hended hfailure
  generalize g.jobs = jobs at hslot ⊢
  induction jobs with
  | nil => exact ⟨[], rfl, .nil⟩
  | cons j rest ih =>
    rw [List.forall_mem_cons] at hslot
    obtain ⟨r, hr, hpass⟩ := hslot.1
    obtain ⟨results, hresults, hpasses⟩ := ih hslot.2
    exact ⟨r :: results, by rw [List.map_cons, List.map_cons, hr, hresults], .cons hpass hpasses⟩

/-- **What a run returns**: the results of the units in order if all of them succeed, and
otherwise a failure that one of them has of its own. -/
theorem Sound.outcome (h : Sound d cwd o limit units g) (hinterrupted : g.interrupted = false)
    {outcome : Except Failure (List (Option UnitResult))}
    (hreturned : g.outcome? = some outcome) :
    (∃ results : List UnitResult, outcome = .ok (results.map some) ∧
      List.Forall₂ (fun u r => processUnit d cwd o false u = .ok r) units results) ∨
    ∃ f, outcome = .error f ∧ f ≠ .canceled ∧
    ∃ u ∈ units, processUnit d cwd o false u = .error f := by
  obtain ⟨hended, rfl⟩ := outcome?_eq_some hreturned
  cases hfailure : g.failure with
  | some f => exact .inr ⟨f, rfl, h.own hinterrupted f hfailure⟩
  | none =>
    obtain ⟨results, hslots, hpasses⟩ := h.exists_results hended hfailure
    exact .inl ⟨results, by rw [hslots], hpasses⟩

/-! ## Passes one by one -/

/-- A pass that has not started does not go on. -/
theorem inFlight_of_waiting {rest : List String} {j : Job}
    (hj : j ∈ rest.map (⟨·, .waiting⟩ : String → Job)) : j.inFlight = false := by
  obtain ⟨u, -, rfl⟩ := List.mem_map.1 hj
  rfl

/-- Nor does one that has ended. -/
theorem inFlight_of_hasEnded {j : Job} (hj : j.hasEnded = true) : j.inFlight = false := by
  obtain ⟨u, stage⟩ := j
  cases stage with
  | ended slot => rfl
  | _ => cases hj

/-- Where the passes before have ended and those behind are waiting, the next one is started and
looks. -/
theorem Run.running {failure : Option Failure} {cancelled : Bool}
    {rest : List String} (hlimit : 0 < limit)
    (hfront : ∀ j ∈ front, j.hasEnded = true)
    (h : Run d cwd o limit units n
      ⟨front ++ ⟨u, .waiting⟩ :: rest.map (⟨·, .waiting⟩), failure, cancelled, false, false⟩) :
    Run d cwd o limit units (n + 2)
      ⟨front ++ ⟨u, .running cancelled⟩ :: rest.map (⟨·, .waiting⟩), failure,
        cancelled, false, false⟩ := by
  have hnone : Group.inFlight
      ⟨front ++ ⟨u, .waiting⟩ :: rest.map (⟨·, .waiting⟩), failure, cancelled, false, false⟩
      = 0 := by
    rw [inFlight, List.countP_eq_zero]
    intro j hj
    rw [Bool.not_eq_true]
    rcases List.mem_append.1 hj with hj | hj
    · exact inFlight_of_hasEnded (hfront j hj)
    · exact inFlight_of_waiting (show j ∈ (u :: rest).map (⟨·, .waiting⟩ : String → Job) from hj)
  exact .step (.step h (.pass rfl rfl (.launch (by rw [hnone]; exact hlimit))))
    (.pass rfl rfl .look)

/-- Once a run has been cancelled by a failure, the passes that are left stop one by one. -/
theorem Run.exists_stopped (hlimit : 0 < limit) {rest : List String}
    (hfront : ∀ j ∈ front, j.hasEnded = true)
    (h : Run d cwd o limit units n
      ⟨front ++ rest.map (⟨·, .waiting⟩), some f, true, false, false⟩) :
    ∃ n g, Run d cwd o limit units n g ∧ g.interrupted = false ∧
    g.outcome? = some (.error f) := by
  induction rest generalizing front n with
  | nil =>
    refine ⟨n, _, h, rfl, ?_⟩
    rw [outcome?, List.map_nil, List.append_nil, if_neg Bool.false_ne_true,
      if_pos (List.all_eq_true.2 hfront)]
  | cons u rest ih =>
    have hstopped : Run d cwd o limit units (n + 3)
        ⟨(front ++ [⟨u, .ended none⟩]) ++ rest.map (⟨·, .waiting⟩), some f,
          true, false, false⟩ := by
      rw [← List.append_cons]
      exact .step (h.running hlimit hfront) (.pass rfl rfl (.fail processUnit_true nofun))
    exact ih (List.forall_mem_append.2 ⟨hfront, List.forall_mem_singleton.2 rfl⟩) hstopped

/-- The passes that are left go on one by one, up to the first that fails. The passes in front
have ended, and the first of the others takes its steps. If it succeeds, the next one follows.
If it fails, the run is cancelled, and every other pass starts, is told to stop, and ends. -/
theorem Run.exists_passes (hlimit : 0 < limit) {rest : List String}
    (hfront : ∀ j ∈ front, j.hasEnded = true)
    (hsound : passes d cwd o false rest ≠ .error .breakdown)
    (h : Run d cwd o limit units n
      ⟨front ++ rest.map (⟨·, .waiting⟩), none, false, false, false⟩) :
    ∃ n g, Run d cwd o limit units n g ∧ g.interrupted = false ∧
      g.outcome?
      = some ((passes d cwd o false rest).map (front.map Job.slot ++ ·.map some)) := by
  induction rest generalizing front n with
  | nil =>
    refine ⟨n, _, h, rfl, ?_⟩
    rw [outcome?, List.map_nil, List.append_nil, if_neg Bool.false_ne_true,
      if_pos (List.all_eq_true.2 hfront)]
    exact congrArg (some ∘ Except.ok) (List.append_nil _).symm
  | cons u rest ih =>
    have hrunning := h.running hlimit hfront
    rw [passes_cons] at hsound ⊢
    cases hpass : processUnit d cwd o false u with
    | error f =>
      rw [hpass] at hsound
      -- A failure cancels the run, and the others are told to stop.
      have hf : f ≠ .breakdown := fun heq => hsound (heq ▸ rfl)
      have hcancelled : Run d cwd o limit units (n + 4)
          ⟨(front ++ [⟨u, .ended none⟩]) ++ rest.map (⟨·, .waiting⟩), some f,
            true, false, false⟩ := by
        rw [← List.append_cons]
        exact .step (.step hrunning (.pass rfl rfl (.fail hpass hf))) (.cancel rfl nofun rfl)
      exact hcancelled.exists_stopped hlimit
        (List.forall_mem_append.2 ⟨hfront, List.forall_mem_singleton.2 rfl⟩)
    | ok r =>
      rw [hpass] at hsound
      -- Otherwise the pass joins those in front of the next one.
      have hended : Run d cwd o limit units (n + 3)
          ⟨(front ++ [⟨u, .ended (some r)⟩]) ++ rest.map (⟨·, .waiting⟩), none,
            false, false, false⟩ := by
        rw [← List.append_cons]
        exact .step hrunning (.pass rfl rfl (.succeed hpass))
      have hrest : passes d cwd o false rest ≠ .error .breakdown :=
        fun heq => hsound (by rw [heq]; rfl)
      obtain ⟨n', g, hrun, hinterrupted, houtcome⟩ := ih
        (List.forall_mem_append.2 ⟨hfront, List.forall_mem_singleton.2 rfl⟩) hrest hended
      refine ⟨n', g, hrun, hinterrupted, houtcome.trans ?_⟩
      cases passes d cwd o false rest with
      | error f => rfl
      | ok results =>
        refine congrArg (some ∘ Except.ok) ?_
        rw [List.map_append]
        exact List.append_assoc _ _ _

end Group

/-- **Passes that go on one by one are one of the orders.** -/
theorem returns_processUnits (hprocessors : 0 < processors)
    (h : processUnits d cwd o false units ≠ .error .breakdown) :
    Returns d cwd o processors units ((processUnits d cwd o false units).map (·.map some)) := by
  unfold Returns
  unfold processUnits at h ⊢
  cases hcheck : o.checkCollisions units with
  | error f => rfl
  | ok _ =>
    rw [hcheck] at h
    exact (Group.Run.start).exists_passes (limit_pos o hprocessors)
      (fun _ hj => absurd hj List.not_mem_nil) h

/-- **That passes go on at the same time cannot be seen.** Every run over units that do not
collide takes a bounded number of steps, never has more passes going on than allowed, and can go
on until it returns, unless the parser breaks down on a unit. In whatever order its passes take
their steps, it returns the results of the units in order if all of them succeed on their own;
if one of them fails on its own, it returns a failure that one of them has of its own, and never
that the run was cancelled. What comes of the passes one by one is among what can be
returned. -/
theorem runs_return_own_outcomes (d : Disk) (cwd : String) (o : Options) (processors : Nat)
    (units : List String) (hprocessors : 0 < processors)
    (hcheck : o.checkCollisions units = .ok ()) :
    (∀ n g, Group.Run d cwd o (o.limit processors) units n g → g.interrupted = false →
      n ≤ 3 * units.length + 3 ∧ g.inFlight ≤ o.limit processors ∧
      ((∃ outcome, g.outcome? = some outcome) ∨
        (∃ g', Group.Step d cwd o (o.limit processors) g g' ∧ g'.interrupted = false) ∨
        g.broken = true ∧ ∃ u ∈ units, processUnit d cwd o false u = .error .breakdown)) ∧
    (∀ outcome, Returns d cwd o processors units outcome →
      ((∀ u ∈ units, ∃ r, processUnit d cwd o false u = .ok r) →
        ∃ results : List UnitResult, outcome = .ok (results.map some) ∧
          List.Forall₂ (fun u r => processUnit d cwd o false u = .ok r) units results) ∧
      ((∃ u ∈ units, ∃ f, processUnit d cwd o false u = .error f) →
        ∃ f, outcome = .error f ∧ f ≠ .canceled ∧
          ∃ u ∈ units, processUnit d cwd o false u = .error f)) ∧
    (processUnits d cwd o false units ≠ .error .breakdown →
      Returns d cwd o processors units
      ((processUnits d cwd o false units).map (·.map some))) := by
  refine ⟨fun n g hrun hinterrupted => ⟨hrun.length_le, hrun.sound.bound, ?_⟩,
    fun outcome hreturns => ?_, returns_processUnits hprocessors⟩
  · -- A run that is not at its end goes on, unless the parser broke down.
    cases hbroken : g.broken with
    | true => exact .inr (.inr ⟨rfl, hrun.sound.broken hbroken⟩)
    | false =>
      by_cases hended : g.jobs.all Job.hasEnded = true
      · left
        rw [Group.outcome?, hbroken, if_neg Bool.false_ne_true, if_pos hended]
        cases g.failure with
        | none => exact ⟨_, rfl⟩
        | some f => exact ⟨_, rfl⟩
      · obtain ⟨g', hstep, hsame⟩ := Group.exists_step (limit_pos o hprocessors) hbroken hended
        exact .inr (.inl ⟨g', hstep, hsame.trans hinterrupted⟩)
  · rw [Returns, hcheck] at hreturns
    obtain ⟨n, g, hrun, hinterrupted, houtcome⟩ := hreturns
    rcases hrun.sound.outcome hinterrupted houtcome with ⟨results, heq, hpasses⟩ |
        ⟨f, heq, hf, u, hu, hpass⟩
    · refine ⟨fun _ => ⟨results, heq, hpasses⟩, fun ⟨u, hu, f, hpass⟩ => ?_⟩
      -- a unit with a result does not fail
      obtain ⟨i, hi, rfl⟩ := List.getElem_of_mem hu
      have hr := hpasses.get hi (hpasses.length_eq ▸ hi)
      rw [List.get_eq_getElem, hpass] at hr
      cases hr
    · refine ⟨fun hall => ?_, fun _ => ⟨f, heq, hf, u, hu, hpass⟩⟩
      obtain ⟨r, hr⟩ := hall u hu
      rw [hpass] at hr
      cases hr

/-- Whatever happens to the other passes, a unit that is missing is what a run fails with. -/
theorem runs_return_own_outcomes_missing :
    0 < 4 ∧ headedOptions.checkCollisions ["a.ts", "b.ts", "a.ts"] = .ok () ∧
      ∀ outcome, Returns freshDisk "/w" headedOptions 4 ["a.ts", "b.ts", "a.ts"] outcome →
        outcome = .error (.unreadableUnit "b.ts" "open b.ts: no such file or directory") := by
  have hprocessors : 0 < 4 := by decide
  have hcheck : headedOptions.checkCollisions ["a.ts", "b.ts", "a.ts"] = .ok () := by
    decide +kernel
  have hmissing : processUnit freshDisk "/w" headedOptions false "b.ts" =
      .error (.unreadableUnit "b.ts" "open b.ts: no such file or directory") := by
    have hread : freshDisk.read "/w" "b.ts" = .error "open b.ts: no such file or directory" := by
      decide +kernel
    rw [processUnit, if_neg Bool.false_ne_true, loadUnit, hread]
  have hfound : (processUnit freshDisk "/w" headedOptions false "a.ts").toBool = true := by
    decide +kernel
  refine ⟨hprocessors, hcheck, fun outcome hreturns => ?_⟩
  obtain ⟨-, hreturned, -⟩ :=
    runs_return_own_outcomes freshDisk "/w" headedOptions 4
      ["a.ts", "b.ts", "a.ts"] hprocessors hcheck
  obtain ⟨f, rfl, -, u, hu, hpass⟩ :=
    (hreturned outcome hreturns).2 ⟨"b.ts", by decide, _, hmissing⟩
  rcases List.mem_cons.1 hu with rfl | hu
  · rw [hpass] at hfound
    cases hfound
  rcases List.mem_cons.1 hu with rfl | hu
  · rw [hmissing] at hpass
    rw [Except.error.inj hpass]
  · rw [List.mem_singleton.1 hu] at hpass
    rw [hpass] at hfound
    cases hfound

/-- Two interfaces in files of one name. -/
def namesakeDisk : Disk :=
  ⟨[(["eg.ts", "a", "w"], .file (Text.ofString "export interface A \x7b a: string \x7d")),
    (["eg.ts", "b", "w"], .file (Text.ofString "export interface B \x7b b: string \x7d")),
    (["a", "w"], .directory), (["b", "w"], .directory), (["w"], .directory)]⟩

/-- Not all units that succeed on their own are returned: two that would write the same file are
refused. -/
theorem not_returns_results :
    ¬ ∀ (d : Disk) (cwd : String) (o : Options) (processors : Nat) (units : List String)
      (outcome : Except Failure (List (Option UnitResult))), 0 < processors →
      Returns d cwd o processors units outcome →
      (∀ u ∈ units, ∃ r, processUnit d cwd o false u = .ok r) →
      ∃ results : List UnitResult, outcome = .ok (results.map some) ∧
        List.Forall₂ (fun u r => processUnit d cwd o false u = .ok r) units results := by
  intro hall
  have hcheck : headedOptions.checkCollisions ["a/eg.ts", "b/eg.ts"] =
      .error (.collision "a/eg.ts" "b/eg.ts" "out/eg.builder.ts") := by decide +kernel
  have hpasses : ∀ u ∈ ["a/eg.ts", "b/eg.ts"],
      (processUnit namesakeDisk "/w" headedOptions false u).toBool = true := by
    decide +kernel
  obtain ⟨results, hresults, -⟩ := hall namesakeDisk "/w" headedOptions 1
    ["a/eg.ts", "b/eg.ts"]
    (.error (.collision "a/eg.ts" "b/eg.ts" "out/eg.builder.ts")) (by decide)
    (by rw [Returns, hcheck]) fun u hu => by
      have hpass := hpasses u hu
      cases hr : processUnit namesakeDisk "/w" headedOptions false u with
      | ok r => exact ⟨r, rfl⟩
      | error f => rw [hr] at hpass; cases hpass
  cases hresults

end Exemplar.Pass
