import Exemplar.Command.Run
import Exemplar.Proofs.Pass.Failing

/-!
# Commands that leave the file system alone

Most of what a command does is to look and to speak. Such actions leave the file system as they
find it, whether they succeed or fail, and so does everything put together from them: `Spares`
follows the structure of an action, and only `Action.change` is left out.

Checking and showing declarations are put together like this. Generating is not, but it changes
nothing before all units are processed. A run in which that fails has changed nothing at all.

An action runs in its surroundings on a session, and comes out with an answer or a failure and
the session as it is then. So a failure does not take back what was done before it, and it has
to be seen that nothing was done. Why units cannot be processed is known from the pass: some
unit hinders it. What comes before the processing, the reading of the configuration and the
tables, spares the disk, so the units are processed on the disk that the run started with.
-/

namespace Exemplar

/-! ## Looking and speaking

A session has the file system, what was said, and the settings of the log. What is said goes to
a list of its own. -/

namespace Session

/-- And so does a notice. -/
@[simp] theorem disk_notify (s : Session) (c : Channel) (l : Label) (text : String) :
    (s.notify c l text).disk = s.disk := rfl

/-- An entry of the log is spoken, or left out. -/
@[simp] theorem disk_log (s : Session) (e : Log.Entry) : (s.log e).disk = s.disk := by
  unfold log
  dsimp only
  split <;> rfl

/-- Any number of entries. -/
@[simp] theorem disk_foldl_log (s : Session) (entries : List Log.Entry) :
    (entries.foldl log s).disk = s.disk := by
  induction entries generalizing s with
  | nil => rfl
  | cons e rest ih => rw [List.foldl_cons, ih, disk_log]

/-- Reporting a failure changes nothing. -/
@[simp] theorem disk_report (s : Session) (f : Failure) : (s.report f).disk = s.disk := by
  have hhints : ∀ (hints : List String) (s : Session),
      (hints.foldl (fun s h => s.notify .remarks .info h) s).disk = s.disk := by
    intro hints
    induction hints with
    | nil => exact fun _ => rfl
    | cons h rest ih => exact fun s => (ih _).trans (disk_notify s _ _ h)
  unfold report
  split
  · rfl
  · exact (hhints _ _).trans (disk_notify _ _ _ _)

end Session

namespace Action

variable {α β : Type}

/-- An action run in its surroundings: its outcome, and the session it leaves. -/
def exec (x : Action α) (around : Surroundings) (s : Session) : Except Failure α × Session :=
  (x.run around).run.run s

/-- What comes behind a failure is not done. -/
theorem exec_bind (x : Action α) (f : α → Action β) (around : Surroundings) (s : Session) :
    (x >>= f).exec around s = match x.exec around s with
      | (.ok a, next) => (f a).exec around next
      | (.error e, next) => (.error e, next) := by
  unfold exec
  rw [ReaderT.run_bind, ExceptT.run_bind, StateT.run_bind]
  rcases (x.run around).run.run s with ⟨_ | a, next⟩ <;> rfl

/-- An action that leaves the file system as it is, whether it fails or not. -/
class Spares (x : Action α) : Prop where
  disk_eq : ∀ around s, (x.exec around s).2.disk = s.disk

namespace Spares

instance (a : α) : Spares (pure a : Action α) := ⟨fun _ _ => rfl⟩

instance (f : Failure) : Spares (throw f : Action α) := ⟨fun _ _ => rfl⟩

instance : Spares (read : Action Surroundings) := ⟨fun _ _ => rfl⟩

instance : Spares (get : Action Session) := ⟨fun _ _ => rfl⟩

/-- One action after another: if the first fails, the second is not done. -/
instance bind (x : Action α) (f : α → Action β) [hx : Spares x] [hf : ∀ a, Spares (f a)] :
    Spares (x >>= f) where
  disk_eq around s := by
    have hfirst := hx.disk_eq around s
    rw [exec_bind]
    generalize x.exec around s = r at hfirst ⊢
    obtain ⟨_ | a, next⟩ := r
    · exact hfirst
    · exact ((hf a).disk_eq around next).trans hfirst

/-- One of two actions. -/
instance ite (P : Prop) [Decidable P] (x y : Action α) [Spares x] [Spares y] :
    Spares (if P then x else y) := by
  split <;> assumption

/-- A change of the session that is none of the file system. -/
theorem modify {f : Session → Session} (h : ∀ s, (f s).disk = s.disk) :
    Spares (modify f : Action Unit) := ⟨fun _ s => h s⟩

instance (r : Except Failure α) : Spares (ofExcept r) := by
  cases r <;> (unfold ofExcept; infer_instance)

instance (t : Text) : Spares (print t) := modify fun _ => rfl

instance (l : Label) (text : String) : Spares (notify l text) := modify fun _ => rfl

instance (entries : List Log.Entry) : Spares (log entries) :=
  modify fun s => s.disk_foldl_log entries

instance : Spares verbosity := by unfold verbosity; infer_instance

/-- An action for each item of a list. -/
instance forM (l : List β) (f : β → Action PUnit) [∀ b, Spares (f b)] : Spares (l.forM f) := by
  induction l with
  | nil => exact inferInstanceAs (Spares (pure ()))
  | cons b rest ih => exact inferInstanceAs (Spares (f b >>= fun _ => rest.forM f))

end Spares

end Action

namespace Command

open Exemplar.Action

-- The search for an instance is as deep as the action is long.
set_option synthInstance.maxSize 10000

/-! ## Commands

The parts of a command are taken apart by the search for instances. -/

instance (a : Arguments) : Spares (loadConfig a) := by
  have hjson : Spares (modify fun s : Session =>
      { s with sink := { s.sink with structured := true } } : Action Unit) :=
    Spares.modify fun _ => rfl
  unfold loadConfig
  dsimp only
  infer_instance

instance (a : Arguments) (c : Config) : Spares (loadTables a c) := by
  unfold loadTables; dsimp only; infer_instance

instance (a : Arguments) : Spares (prepare a) := by
  unfold prepare passOptions; infer_instance

instance (o : Pass.Options) (units : List String) : Spares (processUnits o units) := by
  unfold processUnits; infer_instance

instance (a : Arguments) : Spares (runCheck a) := by
  have hlast : ∀ found : Pass.CheckResult, Spares (match found.failure? with
      | some f => throw f
      | none =>
        Action.notify .success s!"{a.others.length} unit(s) up to date" : Action Unit) := by
    intro found
    cases found.failure? <;> infer_instance
  unfold runCheck
  dsimp only
  infer_instance

instance (a : Arguments) : Spares (runDecls a) := by
  unfold runDecls; infer_instance

/-! ## Runs

A run reads its arguments, takes the settings of the log from them, and runs its command. If
that fails, the failure is reported at the end. -/

/-- The session in which a command with the given arguments starts. -/
def opening (around : Surroundings) (disk : Disk) (colour : Bool) (a : Arguments) : Session :=
  ⟨disk, ⟨a.isOn "json-logs", colour, a.tally "verbose", around.moment⟩, []⟩

/-- A run leaves the file system that its command leaves. -/
theorem disk_run (around : Surroundings) (disk : Disk) (colour : Bool) {args : List String}
    {line : Line} (h : Line.read args = .ok line) :
    (run around disk colour args).session.disk
      = (line.run.exec around ⟨disk, ⟨false, colour, 0, around.moment⟩, []⟩).2.disk := by
  have haction : action args = line.run := by
    unfold action
    rw [h]
  unfold run
  rw [haction]
  unfold exec
  dsimp only
  generalize (line.run.run around).run.run _ = r
  obtain ⟨f | watching, s⟩ := r
  · exact s.disk_report f
  · rfl

/-- The settings of the log are no part of the file system. -/
instance (a : Arguments) : Spares (modify fun s : Session => { s with
    sink := { s.sink with structured := a.isOn "json-logs", verbosity := a.tally "verbose" } } :
      Action Unit) :=
  Spares.modify fun _ => rfl

/-- Checking and showing declarations never change the file system. -/
theorem spares_run {line : Line} (h : line.command = .check ∨ line.command = .decls) :
    Spares line.run := by
  unfold Line.run
  dsimp only
  rcases h with h | h <;> (rw [h]; infer_instance)

/-- Units that cannot be processed end an action. -/
theorem exec_processUnits {o : Pass.Options} {units : List String} {around : Surroundings}
    {s : Session} {f : Failure}
    (h : Pass.processUnits s.disk around.cwd o around.cancelled units = .error f) :
    ∃ next, (processUnits o units).exec around s = (.error f, next) ∧ next.disk = s.disk := by
  have hspares := Spares.disk_eq (x := processUnits o units) around s
  -- The failure of the pass is that of the action, as what is logged before it succeeds.
  have hexec : ((processUnits o units).exec around s).1 = .error f := by
    unfold processUnits
    show ((ofExcept (Pass.processUnits s.disk around.cwd o around.cancelled units)).exec around
      ((Pass.entriesOf s.disk around.cwd o around.cancelled units).foldl Session.log s)).1 = _
    rw [h]
    rfl
  exact ⟨_, Prod.ext hexec rfl, hspares⟩

/-- **Generating changes nothing unless all units are processed.** -/
theorem disk_runGenerate {a : Arguments} {around : Surroundings} {s : Session}
    (hwatch : a.isOn "watch" = false)
    (h : ∀ o next, (prepare a).exec around s = (.ok o, next) →
      ∃ f, Pass.processUnits s.disk around.cwd o around.cancelled a.others = .error f) :
    ((runGenerate a).exec around s).2.disk = s.disk := by
  have hprepare := Spares.disk_eq (x := prepare a) around s
  unfold runGenerate
  rw [exec_bind]
  -- If the preparation fails, nothing has been processed yet.
  cases hp : (prepare a).exec around s with
  | mk outcome next =>
    rw [hp] at hprepare
    cases outcome with
    | error f => exact hprepare
    | ok o =>
      obtain ⟨f, hfail⟩ := h o next hp
      rw [← hprepare] at hfail ⊢
      obtain ⟨last, hlast, hdisk⟩ := exec_processUnits hfail
      dsimp only
      rw [hwatch, if_neg Bool.false_ne_true, exec_bind, hlast]
      exact hdisk

/-- **A run that fails changes nothing.** A check and a list of declarations leave the file
system as it is, however they end. A run that generates leaves it as it is if its units cannot
be processed, whatever the other units would have yielded; and units cannot be processed just if
one of them is missing, unreadable or faulty, or two share an output, or the run was
cancelled. -/
theorem failing_run_keeps_disk (around : Surroundings) (disk : Disk) (colour : Bool)
    (args : List String) (line : Line) (hline : Line.read args = .ok line) :
    (line.command = .check ∨ line.command = .decls →
        (run around disk colour args).session.disk = disk) ∧
      (line.command = .generate → line.arguments.isOn "watch" = false →
        (∀ o next, (prepare line.arguments).exec around
            (opening around disk colour line.arguments) = (.ok o, next) →
          ∃ f, Pass.processUnits disk around.cwd o around.cancelled line.arguments.others
          = .error f) →
        (run around disk colour args).session.disk = disk) ∧
      ∀ o, (∃ f, Pass.processUnits disk around.cwd o around.cancelled line.arguments.others
          = .error f) ↔
        Pass.Hindered disk around.cwd o around.cancelled line.arguments.others := by
  refine ⟨fun hcommand => ?_, fun hcommand hwatch hfail => ?_,
    fun o => Pass.processUnits_eq_error_iff⟩
  · rw [disk_run around disk colour hline]
    exact (spares_run hcommand).disk_eq around _
  · rw [disk_run around disk colour hline]
    -- The line asks for help, or the command is executed.
    unfold Line.run
    dsimp only
    split
    · rfl
    · rw [hcommand, exec_bind]
      show ((runGenerate line.arguments).exec around
        (opening around disk colour line.arguments)).2.disk = disk
      exact disk_runGenerate hwatch hfail

/-- A run on a quiet machine that nobody cancels. -/
def quietSurroundings : Surroundings :=
  ⟨"/w", [], .unknown, "", "", ⟨"", ""⟩, false⟩

/-- Nothing is written for a unit if another one is missing. -/
theorem failing_run_keeps_disk_missing :
    ∃ line, Line.read ["generate", "a.ts", "b.ts", "-o", "out"] = .ok line ∧
      line.command = .generate ∧
      (run quietSurroundings Pass.freshDisk false
        ["generate", "a.ts", "b.ts", "-o", "out"]).session.disk = Pass.freshDisk := by
  have hread : (Line.read ["generate", "a.ts", "b.ts", "-o", "out"]).map
      (fun l => (l.command, l.arguments.isOn "watch", l.arguments.others))
        = .ok (.generate, false, ["a.ts", "b.ts"]) := by decide +kernel
  have hmissing : Pass.freshDisk.read "/w" "b.ts"
      = .error "open b.ts: no such file or directory" := by decide +kernel
  cases hline : Line.read ["generate", "a.ts", "b.ts", "-o", "out"] with
  | error e => rw [hline] at hread; cases hread
  | ok line =>
    rw [hline] at hread
    obtain ⟨hcommand, harguments⟩ := Prod.mk.inj (Except.ok.inj hread)
    obtain ⟨hwatch, hothers⟩ := Prod.mk.inj harguments
    obtain ⟨-, hgenerate, hreasons⟩ :=
      failing_run_keeps_disk quietSurroundings Pass.freshDisk false
      ["generate", "a.ts", "b.ts", "-o", "out"] line hline
    refine ⟨line, rfl, hcommand, hgenerate hcommand hwatch fun o _ _ => (hreasons o).2 ?_⟩
    have hunit : "b.ts" ∈ line.arguments.others := by
      rw [hothers]
      exact List.mem_cons_of_mem _ List.mem_cons_self
    exact .unreadable hunit hmissing

end Command

end Exemplar
