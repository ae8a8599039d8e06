import FleetOps.Proofs.Execution.Record

set_option autoImplicit false

namespace FleetOps.ExecutionRecord

-- What is written to the record stays written when a later step fails.
abbrev Edit :=
  ExceptT SchedulerError (StateM ExecutionRecord)

namespace Edit

def move (next : ExecutionStatus) : Edit Unit := do
  let r ← get
  if r.status.canBecome next then set { r with status := next }
  else throw (.invalidTransition r.id r.status next)

def finish (now : Instant) : Edit Unit :=
  modify fun r => { r with finishedAt := some now }

def write (now : Instant) : Change → Edit Unit
  | .start => modify fun r => { r with startedAt := some now }
  | .succeed summary => do
    modify fun r => { r with result := some summary }
    finish now
  | .fail message => do
    modify fun r => { r with error := some message }
    finish now
  | .skip reason => do
    modify fun r => { r with result := some (reasonJson reason) }
    finish now

def make (now : Instant) (change : Change) : Edit Unit := do
  move change.target
  write now change

end Edit

structure Call where
  change : Change
  now : Instant

def attempt (r : ExecutionRecord) (c : Call) : Except SchedulerError Unit × ExecutionRecord :=
  (Edit.make c.now c.change).run.run r

def attempts (r : ExecutionRecord) : List Call → List (Except SchedulerError Unit) × ExecutionRecord
  | [] => ([], r)
  | c :: rest =>
    let (answer, r) := r.attempt c
    let (answers, r) := r.attempts rest
    (answer :: answers, r)

def changed (r : ExecutionRecord) (c : Call) : ExecutionRecord :=
  match c.change with
  | .start => { r with status := .running, startedAt := some c.now }
  | .succeed summary => { r with status := .success, result := some summary, finishedAt := some c.now }
  | .fail message => { r with status := .failed, error := some message, finishedAt := some c.now }
  | .skip reason =>
    { r with status := .skipped, result := some (reasonJson reason), finishedAt := some c.now }

variable {r r' : ExecutionRecord} {c : Call} {next : ExecutionStatus}

theorem move_allowed (may : r.status.canBecome next = true) :
    (Edit.move next).run.run r = (.ok (), { r with status := next }) := by
  change (if r.status.canBecome next then _ else _ : Edit Unit).run.run r = _
  rw [if_pos may]
  rfl

theorem move_refused (mayNot : r.status.canBecome next = false) :
    (Edit.move next).run.run r = (.error (.invalidTransition r.id r.status next), r) := by
  change (if r.status.canBecome next then _ else _ : Edit Unit).run.run r = _
  rw [if_neg (by simp [mayNot])]
  rfl

theorem attempt_allowed (may : r.status.canBecome c.change.target = true) :
    r.attempt c = (.ok (), r.changed c) := by
  rw [attempt, Edit.make, ExceptT.run_bind, StateT.run_bind, move_allowed may, changed]
  cases c.change <;> rfl

theorem attempt_refused (mayNot : r.status.canBecome c.change.target = false) :
    r.attempt c = (.error (.invalidTransition r.id r.status c.change.target), r) := by
  rw [attempt, Edit.make, ExceptT.run_bind, StateT.run_bind, move_refused mayNot]
  rfl

theorem apply_allowed (may : r.status.canBecome c.change.target = true) :
    r.apply c.change c.now = .ok (r.changed c) := by
  unfold apply changed
  cases h : c.change <;> rw [h] at may
  · exact start_of may
  · exact succeed_of _ may
  · exact fail_of _ may
  · exact skip_of _ may

theorem apply_refused (mayNot : r.status.canBecome c.change.target = false) :
    r.apply c.change c.now = .error (.invalidTransition r.id r.status c.change.target) := by
  have refused : r.become c.change.target = .error (.invalidTransition r.id r.status c.change.target) := by
    simp [become, mayNot]
  cases h : c.change with
  | start | succeed | fail | skip =>
    rw [h, Change.target] at refused
    change r.become _ >>= _ = _
    rw [refused]
    rfl

theorem apply_eq (r : ExecutionRecord) (c : Call) :
    r.apply c.change c.now = (r.attempt c).1.map fun _ => (r.attempt c).2 := by
  cases may : r.status.canBecome c.change.target with
  | true =>
    rw [apply_allowed may, attempt_allowed may]
    rfl
  | false =>
    rw [apply_refused may, attempt_refused may]
    rfl

theorem changed_kept (r : ExecutionRecord) (c : Call) : (r.changed c).id = r.id ∧
    (r.changed c).purpose = r.purpose ∧ (r.changed c).createdAt = r.createdAt := by
  rcases c with ⟨change, now⟩
  cases change <;> exact ⟨rfl, rfl, rfl⟩

theorem apply_kept (applied : r.apply c.change c.now = .ok r') :
    r'.id = r.id ∧ r'.purpose = r.purpose ∧ r'.createdAt = r.createdAt := by
  cases may : r.status.canBecome c.change.target with
  | true =>
    rw [apply_allowed may] at applied
    exact Except.ok.inj applied ▸ r.changed_kept c
  | false =>
    rw [apply_refused may] at applied
    cases applied

inductive Lives (q : ExecutionRecord) : Nat → ExecutionRecord → Prop where
  | queued : Lives q 0 q
  | running (began : Instant) : Lives q 1 { q with status := .running, startedAt := some began }
  | dismissed (reason : String) (ended : Instant) :
      Lives q 1 { q with status := .skipped, result := some (reasonJson reason), finishedAt := some ended }
  | succeeded (began : Instant) (summary : Json) (ended : Instant) :
      Lives q 2 { q with status := .success, startedAt := some began, result := some summary,
                         finishedAt := some ended }
  | failed (began : Instant) (message : String) (ended : Instant) :
      Lives q 2 { q with status := .failed, startedAt := some began, error := some message,
                         finishedAt := some ended }
  | skipped (began : Instant) (reason : String) (ended : Instant) :
      Lives q 2 { q with status := .skipped, startedAt := some began, result := some (reasonJson reason),
                         finishedAt := some ended }

namespace Lives

variable {q : ExecutionRecord} {n : Nat}

theorem changed (lives : q.Lives n r) (queued : q.status = .queued)
    (may : r.status.canBecome c.change.target = true) : q.Lives (n + 1) (r.changed c) := by
  rcases c with ⟨change, now⟩
  cases lives with
  | queued =>
    rw [queued] at may
    cases change with
    | start => exact .running now
    | skip reason => exact .dismissed reason now
    | succeed | fail => cases may
  | running began =>
    cases change with
    | start => cases may
    | succeed summary => exact .succeeded began summary now
    | fail message => exact .failed began message now
    | skip reason => exact .skipped began reason now
  | dismissed | succeeded | failed | skipped => cases change <;> cases may

theorem attempts (lives : q.Lives n r) (queued : q.status = .queued) (calls : List Call) :
    q.Lives (n + (r.attempts calls).1.countP (·.isOk)) (r.attempts calls).2 := by
  induction calls generalizing n r with
  | nil => exact lives
  | cons c rest ih =>
    cases may : r.status.canBecome c.change.target with
    | true =>
      have next := ih (lives.changed queued may)
      simpa [ExecutionRecord.attempts, attempt_allowed may, Except.isOk, Except.toBool, Nat.add_assoc,
        Nat.add_comm 1] using next
    | false =>
      have next := ih lives
      simpa [ExecutionRecord.attempts, attempt_refused may, Except.isOk, Except.toBool] using next

theorem le_two (lives : q.Lives n r) : n ≤ 2 := by
  cases lives <;> decide

theorem kept (lives : q.Lives n r) : r.id = q.id ∧ r.purpose = q.purpose ∧ r.createdAt = q.createdAt := by
  cases lives <;> exact ⟨rfl, rfl, rfl⟩

end Lives

def FieldsFit (r : ExecutionRecord) : Prop :=
  match r.status with
  | .queued => r.startedAt = none ∧ r.finishedAt = none ∧ r.result = none ∧ r.error = none
  | .running => r.startedAt ≠ none ∧ r.finishedAt = none ∧ r.result = none ∧ r.error = none
  | .success => r.startedAt ≠ none ∧ r.finishedAt ≠ none ∧ r.result ≠ none ∧ r.error = none
  | .failed => r.startedAt ≠ none ∧ r.finishedAt ≠ none ∧ r.result = none ∧ r.error ≠ none
  | .skipped =>
    r.finishedAt ≠ none ∧ r.error = none ∧
      ∃ reason, r.result = some (reasonJson reason) ∧ r.skipReason = some reason ∧
        (r.wasBusy = true ↔ reason = alreadyRunning)

theorem skipReason_of_skipped {reason : String} (skipped : r.status = .skipped)
    (told : r.result = some (reasonJson reason)) : r.skipReason = some reason := by
  simp [skipReason, skipped, told, reasonJson, Json.get?, Json.member?, Json.str?]

theorem fieldsFit_skipped {reason : String} (skipped : r.status = .skipped)
    (told : r.result = some (reasonJson reason)) (ended : r.finishedAt ≠ none) (fine : r.error = none) :
    r.FieldsFit := by
  have given := skipReason_of_skipped skipped told
  have busy : r.wasBusy = true ↔ reason = alreadyRunning := by simp [wasBusy, given]
  rw [FieldsFit, skipped]
  exact ⟨ended, fine, reason, told, given, busy⟩

theorem fieldsFit_of_lives {id : ExecutionId} {new : NewExecution} {created : Instant} {n : Nat}
    (lives : (queued id new created).Lives n r) : r.FieldsFit := by
  cases lives with
  | queued | running | succeeded | failed => simp [FieldsFit, queued]
  | dismissed reason ended => exact fieldsFit_skipped rfl rfl (by simp) rfl
  | skipped began reason ended => exact fieldsFit_skipped rfl rfl (by simp) rfl

theorem lifecycle (id : ExecutionId) (new : NewExecution) (created : Instant) (calls : List Call)
    (next : Call) :
    let history := (queued id new created).attempts calls
    let r := history.2
    ((r.attempt next).1 = .ok () ↔ r.status.canBecome next.change.target = true) ∧
    (∀ e, (r.attempt next).1 = .error e → (r.attempt next).2 = r) ∧
    (r.apply next.change next.now = (r.attempt next).1.map fun _ => (r.attempt next).2) ∧
    history.1.countP (·.isOk) ≤ 2 ∧
    r.id = id ∧ r.key = new.key ∧ r.environment = new.environment ∧ r.trigger = new.trigger ∧
    r.createdAt = created ∧ r.FieldsFit := by
  intro history r
  have lives := Lives.queued.attempts (q := queued id new created) rfl calls
  obtain ⟨sameId, samePurpose, sameTime⟩ := lives.kept
  have count := lives.le_two
  rw [Nat.zero_add] at count
  have accepted : (r.attempt next).1 = .ok () ↔ r.status.canBecome next.change.target = true := by
    cases may : r.status.canBecome next.change.target with
    | true => simp [attempt_allowed may]
    | false => simp [attempt_refused may]
  have unchanged (e : SchedulerError) (refused : (r.attempt next).1 = .error e) : (r.attempt next).2 = r := by
    cases may : r.status.canBecome next.change.target with
    | true => simp [attempt_allowed may] at refused
    | false => rw [attempt_refused may]
  exact ⟨accepted, unchanged, r.apply_eq next, count, sameId, congrArg NewExecution.key samePurpose,
    congrArg NewExecution.environment samePurpose, congrArg NewExecution.trigger samePurpose, sameTime,
    fieldsFit_of_lives lives⟩

end FleetOps.ExecutionRecord
