import FleetOps.Execution.Trigger
import FleetOps.Scheduler.Job

set_option autoImplicit false

namespace FleetOps

namespace ExecutionRecord

variable {r : ExecutionRecord} {next : ExecutionStatus} {now : Instant}

theorem become_of (may : r.status.canBecome next = true) :
    r.become next = .ok { r with status := next } := by
  simp [become, may]

theorem start_of (may : r.status.canBecome .running = true) :
    r.start now = .ok { r with status := .running, startedAt := some now } := by
  rw [start, become_of may]
  rfl

theorem succeed_of (summary : Json) (may : r.status.canBecome .success = true) :
    r.succeed summary now =
      .ok { r with status := .success, result := some summary, finishedAt := some now } := by
  rw [succeed, become_of may]
  rfl

theorem fail_of (message : String) (may : r.status.canBecome .failed = true) :
    r.fail message now =
      .ok { r with status := .failed, error := some message, finishedAt := some now } := by
  rw [fail, become_of may]
  rfl

theorem skip_of (reason : String) (may : r.status.canBecome .skipped = true) :
    r.skip reason now =
      .ok { r with status := .skipped, result := some (reasonJson reason), finishedAt := some now } := by
  rw [skip, become_of may]
  rfl

theorem start_queued (queued : r.status = .queued) :
    r.start now = .ok { r with status := .running, startedAt := some now } :=
  start_of (by rw [queued]; rfl)

theorem skip_queued (reason : String) (queued : r.status = .queued) :
    r.skip reason now =
      .ok { r with status := .skipped, result := some (reasonJson reason), finishedAt := some now } :=
  skip_of reason (by rw [queued]; rfl)

theorem fail_running (message : String) (active : r.status = .running) :
    r.fail message now =
      .ok { r with status := .failed, error := some message, finishedAt := some now } :=
  fail_of message (by rw [active]; rfl)

def purpose (r : ExecutionRecord) : NewExecution :=
  { key := r.key, environment := r.environment, trigger := r.trigger }

structure BusySkip (r : ExecutionRecord) : Prop where
  status : r.status = .skipped
  reason : r.result = some (reasonJson alreadyRunning)
  unstarted : r.startedAt = none

def Reports (r : ExecutionRecord) : JobEnd → Prop
  | .completed summary => r.status = .success ∧ r.result = some summary
  | .nothingToDo reason => r.status = .skipped ∧ r.result = some (reasonJson reason)
  | .failed cause => r.status = .failed ∧ r.error = some cause.message
  | .crashed message => r.status = .failed ∧ r.error = some ("job panicked: " ++ message)

theorem Reports.isTerminal {e : JobEnd} (h : r.Reports e) : r.status.isTerminal = true := by
  cases e <;> simp [h.1, ExecutionStatus.isTerminal]

theorem conclude_running (now : Instant) (e : JobEnd) (active : r.status = .running) :
    ∃ r', r.conclude e now = .ok r' ∧ r'.id = r.id ∧ r'.purpose = r.purpose ∧
      r'.startedAt = r.startedAt ∧ r'.Reports e := by
  have may (next : ExecutionStatus) (ends : next.isTerminal = true) :
      r.status.canBecome next = true := by
    cases next <;> simp_all [ExecutionStatus.canBecome, ExecutionStatus.isTerminal]
  cases e with
  | completed summary => exact ⟨_, succeed_of summary (may .success rfl), rfl, rfl, rfl, rfl, rfl⟩
  | nothingToDo reason => exact ⟨_, skip_of reason (may .skipped rfl), rfl, rfl, rfl, rfl, rfl⟩
  | failed cause => exact ⟨_, fail_of cause.message (may .failed rfl), rfl, rfl, rfl, rfl, rfl⟩
  | crashed message => exact ⟨_, fail_of _ (may .failed rfl), rfl, rfl, rfl, rfl, rfl⟩

theorem wasBusy_of_skipped {reason : String} (reports : r.Reports (.nothingToDo reason)) :
    r.wasBusy = decide (reason = alreadyRunning) := by
  simp [wasBusy, skipReason, reports.1, reports.2, reasonJson, Json.get?, Json.member?, Json.str?]

end ExecutionRecord

namespace JobEnd

def isDone : JobEnd → Bool
  | .completed _ | .nothingToDo _ => true
  | .failed _ | .crashed _ => false

def failure? : JobEnd → Option String
  | .completed _ | .nothingToDo _ => none
  | .failed cause => some cause.message
  | .crashed message => some ("job panicked: " ++ message)

end JobEnd

namespace TriggerResult

open ExecutionRecord

variable {r : ExecutionRecord} {e : JobEnd}

theorem ofRecord_success (reports : r.Reports e) :
    (ofRecord r).success = true ↔ e.isDone = true ∧ e ≠ .nothingToDo alreadyRunning := by
  cases e with
  | nothingToDo reason =>
    by_cases busy : reason = alreadyRunning <;>
      simp [ofRecord, reports.1, wasBusy_of_skipped reports, JobEnd.isDone, busy]
  | _ => simp [ofRecord, reports.1, JobEnd.isDone]

theorem ofRecord_busy (reports : r.Reports e) :
    (ofRecord r).status = some .skipped ∧ (ofRecord r).error = some alreadyRunning ↔
      e = .nothingToDo alreadyRunning := by
  cases e with
  | nothingToDo reason =>
    by_cases busy : reason = alreadyRunning <;>
      simp [ofRecord, reports.1, wasBusy_of_skipped reports, busy]
  | _ => simp [ofRecord, reports.1]

theorem ofRecord_failure {message : String} (reports : r.Reports e) (failed : e.failure? = some message) :
    (ofRecord r).success = false ∧ (ofRecord r).error = some message ∧ r.error = some message := by
  cases e with
  | completed summary => contradiction
  | nothingToDo reason => contradiction
  | failed cause =>
    obtain rfl := Option.some.inj failed
    simp [ofRecord, reports.1, reports.2]
  | crashed text =>
    obtain rfl := Option.some.inj failed
    simp [ofRecord, reports.1, reports.2]

end TriggerResult

end FleetOps
