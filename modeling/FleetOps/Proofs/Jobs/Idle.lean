import FleetOps.Jobs.Bodies
import FleetOps.Proofs.Scheduler.Fates

set_option autoImplicit false

namespace FleetOps

theorem ExecutionRecord.Reports.skipped_iff {r : ExecutionRecord} {e : JobEnd} (reports : r.Reports e) :
    r.status = .skipped ↔ ∃ reason, e = .nothingToDo reason := by
  cases e <;> simp [reports.1]

theorem commandEnd_done (command : String) (lines : List String) (outcome : ProcessOutcome) (reason : String) :
    commandEnd command lines outcome ≠ .nothingToDo reason := by
  unfold commandEnd
  split <;> exact nofun

-- A command that is configured does not end as if there were nothing to do, even where it cannot be started.
theorem commandJob_some (starter : Starter) (kind : ScheduleKind) (command : JobCommand) (c : JobContext) :
    ∃ e, (∀ reason, e ≠ .nothingToDo reason) ∧ (commandJob starter kind (some command) c).work = .ends e := by
  cases started : starter (command.process c) with
  | error cause => exact ⟨.failed (.io cause), fun _ => nofun, by simp only [commandJob, started]⟩
  | ok outcome =>
    rcases read : textLines (rawLines outcome.output) with ⟨lines, fault⟩
    cases fault with
    | some f =>
      refine ⟨.failed (.io (.badUtf8 f.validUpTo f.badLength)), fun _ => nofun, ?_⟩
      simp only [commandJob, started, read]
    | none =>
      refine ⟨commandEnd command.command lines outcome, commandEnd_done _ _ _, ?_⟩
      simp only [commandJob, started, read]

theorem starts_commandJob (starter : Starter) (kind : ScheduleKind) (command : Option JobCommand)
    (c : JobContext) :
    (commandJob starter kind command c).starts =
      command.bind fun command => (starter (command.process c)).toOption.map fun _ => command.process c := by
  cases command with
  | none => rfl
  | some command =>
    cases started : starter (command.process c) with
    | error cause => simp [commandJob, started, Except.toOption]
    | ok outcome =>
      rcases read : textLines (rawLines outcome.output) with ⟨lines, fault⟩
      cases fault <;> simp [commandJob, started, read, Except.toOption]

/-- A run that starts no process and whose body finds nothing to do; unless the store fails it, its record is
skipped. -/
structure Idle (h : List RunEvent) (starts : List JobProcess) (ends : List JobEnd) (answer : RunAnswer) :
    Prop where
  still : starts = []
  nothing : ∀ e ∈ ends, ∃ reason, e = .nothingToDo reason
  skipped : StoreFailed h ∨ ∃ r, answer = .ok r ∧ r.status = .skipped

def JobBodies.RunsIdle (bodies : JobBodies) (k : ScheduleKey) : Prop :=
  ∀ h starts ends answer, bodies.Runs k h starts ends answer → Idle h starts ends answer

namespace Settings

variable {s : Settings} {starter : Starter} {k : ScheduleKey} {h : List RunEvent} {starts : List JobProcess}
  {ends : List JobEnd} {answer : RunAnswer}

theorem bodies_command (s : Settings) (starter : Starter) {kind : ScheduleKind} (other : kind ≠ .systemCleanup)
    (n : Nat) (c : JobContext) :
    s.bodies starter kind n c = commandJob starter kind (s.jobs.command? kind) c := by
  cases kind with
  | systemCleanup => exact absurd rfl other
  | containerUpdate | gitStackSync | envUpdateCheck => rfl

def process? (s : Settings) (starter : Starter) (c : JobContext) : Option JobProcess :=
  (s.jobs.command? c.key.kind).bind fun command =>
    (starter (command.process c)).toOption.map fun _ => command.process c

theorem runs_start (other : k.kind ≠ .systemCleanup) (runs : (s.bodies starter).Runs k h starts ends answer) :
    starts = (invocations h).filterMap (s.process? starter) := by
  refine runs.starts_eq fun n c key => ?_
  rw [s.bodies_command starter (key ▸ other), starts_commandJob, process?]

theorem runsIdle_of_none (other : k.kind ≠ .systemCleanup) (unset : s.jobs.command? k.kind = none) :
    (s.bodies starter).RunsIdle k := by
  intro h starts ends answer runs
  have endIn : (s.bodies starter).EndIn k fun e => ∃ reason, e = .nothingToDo reason := by
    intro n c key
    rw [s.bodies_command starter other, unset]
    exact ⟨_, ⟨_, rfl⟩, rfl⟩
  have started : starts = (invocations h).filterMap fun _ => none := runs.starts_eq fun n c key => by
    rw [s.bodies_command starter (key ▸ other), starts_commandJob, key, unset]
    rfl
  obtain ⟨start, rfl, ending, nothing, told⟩ := runs.answered endIn
  refine ⟨started.trans (by simp), nothing, ?_⟩
  cases answer with
  | error e => exact .inl (ending.settled.fails.mp ⟨e, rfl⟩)
  | ok r =>
    obtain ⟨e, -, idle, reports⟩ := told r rfl
    exact .inr ⟨r, rfl, reports.skipped_iff.mpr idle⟩

def unused (s : Settings) (starter : Starter) : Scheduler where
  clock := { now := ⟨0, 0⟩ }
  store := .memory .empty
  descriptors := .empty
  bodies := s.bodies starter

theorem not_runsIdle_of_some (other : k.kind ≠ .systemCleanup) {command : JobCommand}
    (set : s.jobs.command? k.kind = some command) : ¬ (s.bodies starter).RunsIdle k := by
  intro idle
  have endIn : (s.bodies starter).EndIn k fun e => ∀ reason, e ≠ .nothingToDo reason := by
    intro n c key
    rw [s.bodies_command starter other, set]
    exact commandJob_some starter _ command c
  -- A run on its own, over a store that does not fail.
  let run : Run := { new := { key := k, environment := none, trigger := .manual } }
  obtain ⟨starts, answer, runs⟩ := JobBodies.Runs.alone (s.unused starter) (rfl : run.phase = .arrived) rfl
  have stored : ¬ StoreFailed ((s.unused starter).trace run.phase.rank run) :=
    Scheduler.stored_of_spared rfl MemoryStore.Made.empty.ordered (fun _ => ⟨rfl, rfl⟩) rfl
  obtain failed | ⟨r, rfl, skipped⟩ := (idle _ _ _ _ runs).skipped
  · exact stored failed
  · obtain ⟨-, -, -, -, told⟩ := runs.answered endIn
    obtain ⟨e, -, done, reports⟩ := told r rfl
    obtain ⟨reason, same⟩ := reports.skipped_iff.mp skipped
    exact done reason same

theorem runsIdle_iff (other : k.kind ≠ .systemCleanup) :
    (s.bodies starter).RunsIdle k ↔ s.jobs.command? k.kind = none := by
  cases set : s.jobs.command? k.kind with
  | none => exact iff_of_true (runsIdle_of_none other set) rfl
  | some command => exact iff_of_false (not_runsIdle_of_some other set) nofun

end Settings

end FleetOps
