import FleetOps.Proofs.Scheduler.Calls

set_option autoImplicit false

namespace FleetOps

inductive Phase.Writes : Phase → ExecutionRecord → Phase → Prop where
  | skipped (r : ExecutionRecord) : Writes (.skipping r) r (.returned (.ok r))
  | started (r : ExecutionRecord) : Writes (.starting r) r (.ready r)
  | ended (r : ExecutionRecord) : Writes (.ending r) r (.leaving (.ok r))

inductive Phase.Refused : Phase → ExecutionRecord → SchedulerError → Phase → Prop where
  | unskipped (r : ExecutionRecord) (e : SchedulerError) : Refused (.skipping r) r e (.unskipped r e)
  | unstarted (r : ExecutionRecord) (e : SchedulerError) : Refused (.starting r) r e (.unstarted r e)
  | unended (r : ExecutionRecord) (e : SchedulerError) :
      Refused (.ending r) r e (.leaving (.error (.store e.message)))

theorem Phase.Refused.due {p next : Phase} {r : ExecutionRecord} {e : SchedulerError}
    (refused : p.Refused r e next) : ∃ next, p.Writes r next := by
  cases refused with
  | unskipped => exact ⟨_, .skipped r⟩
  | unstarted => exact ⟨_, .started r⟩
  | unended => exact ⟨_, .ended r⟩

namespace Scheduler

def orReturn (change : RunAnswer) : Phase :=
  match change with
  | .ok r => .skipping r
  | .error e => .returned (.error e)

inductive Steps (s : Scheduler) (run : Run) : Run → Scheduler → Prop where
  | enter (here : run.phase = .arrived) (free : s.guards.isHeld run.key = false) :
      Steps s run (run.at .admitted) { s with guards := ⟨run.key :: s.guards.held⟩ }
  | turnAway (here : run.phase = .arrived) (held : s.guards.isHeld run.key = true) :
      Steps s run (run.at .turnedAway) s
  | unexcused {e : SchedulerError} {s' : Scheduler} (here : run.phase = .turnedAway)
      (call : s.create run.new = (.error e, s')) : Steps s run (run.at (.returned (.error e))) s'
  | excuse {q : ExecutionRecord} {s' : Scheduler} (here : run.phase = .turnedAway)
      (call : s.create run.new = (.ok q, s')) :
      Steps s run (run.at (orReturn (q.skip alreadyRunning s'.clock.now))) s'
  | unbegun {e : SchedulerError} {s' : Scheduler} (here : run.phase = .admitted)
      (call : s.create run.new = (.error e, s')) : Steps s run (run.at (.leaving (.error e))) s'
  | begin {q : ExecutionRecord} {s' : Scheduler} (here : run.phase = .admitted)
      (call : s.create run.new = (.ok q, s')) :
      Steps s run (run.at (orLeave (q.start s'.clock.now) .starting)) s'
  | write {r : ExecutionRecord} {next : Phase} {s' : Scheduler} (due : run.phase.Writes r next)
      (call : s.update r = (.ok (), s')) : Steps s run (run.at next) s'
  | refused {r : ExecutionRecord} {e : SchedulerError} {next : Phase} {s' : Scheduler}
      (due : run.phase.Refused r e next) (call : s.update r = (.error e, s')) :
      Steps s run (run.at next) s'
  | excuseAgain {r : ExecutionRecord} {cause : SchedulerError}
      (here : run.phase = .unskipped r cause) :
      Steps s run (run.at (.returned (.error cause))) (s.update r).2
  | giveUp {r r' : ExecutionRecord} {cause : SchedulerError} (here : run.phase = .unstarted r cause)
      (failed : r.fail ("could not record start: " ++ cause.message) s.clock.now = .ok r') :
      Steps s run (run.at (.leaving (.error cause))) (s.update r').2
  | abandon {r : ExecutionRecord} {cause e : SchedulerError} (here : run.phase = .unstarted r cause)
      (failed : r.fail ("could not record start: " ++ cause.message) s.clock.now = .error e) :
      Steps s run (run.at (.leaving (.error cause))) s
  | invoke {r : ExecutionRecord} (here : run.phase = .ready r) :
      Steps s run (s.invoke run r).1 (s.invoke run r).2
  | work {r : ExecutionRecord} {body : JobBody} (here : run.phase = .working r body) :
      Steps s run
        (run.at (orLeave (r.conclude (s.perform body.work).1 (s.perform body.work).2.clock.now) .ending))
        (s.perform body.work).2
  | release {answer : RunAnswer} (here : run.phase = .leaving answer) :
      Steps s run (run.at (.returned answer)) { s with guards := s.guards.release run.key }
  | rest {answer : RunAnswer} (here : run.phase = .returned answer) : Steps s run run s

theorem steps_step (s : Scheduler) (run : Run) : s.Steps run (s.step run).1 (s.step run).2 := by
  unfold step
  cases here : run.phase with
  | arrived =>
    cases held : s.guards.isHeld run.key with
    | false => simpa [GuardTable.tryAcquire, held] using .enter here held
    | true => simpa [GuardTable.tryAcquire, held] using .turnAway here held
  | turnedAway =>
    dsimp only
    split
    · next call => exact .unexcused here call
    · next q s' call =>
      have excused := Steps.excuse here call
      revert excused
      cases q.skip alreadyRunning s'.clock.now <;> exact id
  | skipping r =>
    dsimp only
    split
    · next call => exact .write (here ▸ .skipped r) call
    · next call => exact .refused (here ▸ .unskipped r _) call
  | unskipped r cause => exact .excuseAgain here
  | admitted =>
    dsimp only
    split
    · next call => exact .unbegun here call
    · next call => exact .begin here call
  | starting r =>
    dsimp only
    split
    · next call => exact .write (here ▸ .started r) call
    · next call => exact .refused (here ▸ .unstarted r _) call
  | unstarted r cause =>
    dsimp only
    split
    · next failed => exact .giveUp here failed
    · next failed => exact .abandon here failed
  | ready r => exact .invoke here
  | working r body => exact .work here
  | ending r =>
    dsimp only
    split
    · next call => exact .write (here ▸ .ended r) call
    · next call => exact .refused (here ▸ .unended r _) call
  | leaving answer => exact .release here
  | returned answer => exact .rest here

variable {s s' : Scheduler} {run run' : Run}

theorem Steps.kept (steps : s.Steps run run' s') :
    s'.bodies = s.bodies ∧ (s.faults.SparesStore → s'.faults.SparesStore) := by
  have created := (s.create_frame run.new).kept
  have updated (r : ExecutionRecord) := (s.update_frame r).kept
  cases steps with
  | unexcused here call => simpa [call] using created
  | excuse here call => simpa [call] using created
  | unbegun here call => simpa [call] using created
  | begin here call => simpa [call] using created
  | @write r next s' due call => simpa [call] using updated r
  | @refused r e next s' due call => simpa [call] using updated r
  | excuseAgain here => exact updated _
  | giveUp here failed => exact updated _
  | @work r body here => exact (s.perform_frame body.work).kept
  | enter | turnAway | abandon | invoke | release | rest => exact ⟨rfl, id⟩

end Scheduler

end FleetOps
