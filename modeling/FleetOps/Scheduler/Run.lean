import FleetOps.Scheduler.State

set_option autoImplicit false

/-!
Runs of a schedule, one small step at a time. A run takes the guard of its key, records that it is
running, lets the body work and records how it ended. Where the guard is held, the run leaves a skipped
record and no body is invoked. Only failures of the store make a run fail; what goes wrong in a body is
on the record.

Between two steps of a run any other run may move, so each step makes at most one call on the store.
-/

namespace FleetOps

abbrev RunAnswer :=
  Except SchedulerError ExecutionRecord

/-- Where a run stands; each phase names what is due next. -/
inductive Phase where
  | arrived
  | turnedAway
  | skipping (r : ExecutionRecord)
  | unskipped (r : ExecutionRecord) (cause : SchedulerError)
  | admitted
  | starting (r : ExecutionRecord)
  | unstarted (r : ExecutionRecord) (cause : SchedulerError)
  | ready (r : ExecutionRecord)
  | working (r : ExecutionRecord) (body : JobBody)
  | ending (r : ExecutionRecord)
  | leaving (answer : RunAnswer)
  | returned (answer : RunAnswer)
deriving Repr

def Phase.rank : Phase → Nat
  | .arrived => 7
  | .turnedAway => 3
  | .skipping _ => 2
  | .unskipped _ _ => 1
  | .admitted => 6
  | .starting _ => 5
  | .unstarted _ _ => 2
  | .ready _ => 4
  | .working _ _ => 3
  | .ending _ => 2
  | .leaving _ => 1
  | .returned _ => 0

def Phase.holdsGuard : Phase → Bool
  | .arrived | .turnedAway | .skipping _ | .unskipped _ _ | .returned _ => false
  | .admitted | .starting _ | .unstarted _ _ | .ready _ | .working _ _ | .ending _ | .leaving _ => true

structure ProgressEvent where
  execution : ExecutionId
  progress : JobProgress
deriving DecidableEq, Repr

structure Run where
  new : NewExecution
  listened : Bool := false
  phase : Phase := .arrived
  events : List ProgressEvent := []
deriving Repr

def Run.key (run : Run) : ScheduleKey :=
  run.new.key

def Run.at (run : Run) (phase : Phase) : Run :=
  { run with phase }

-- Only the kinds that stream are told of a listener.
def Run.context (run : Run) (r : ExecutionRecord) : JobContext :=
  { key := run.new.key, environment := run.new.environment, trigger := run.new.trigger,
    execution := r.id, listened := run.listened && run.new.key.kind.streams }

namespace Scheduler

def callsOf (s : Scheduler) (kind : ScheduleKind) : Nat :=
  (s.invoked.filter (·.key.kind = kind)).length

def cleanupSummary (removed : Nat) (cutoff : Instant) : Json :=
  .obj [("removed", .nat removed), ("cutoff", .str cutoff.text)]

-- Does the work of a body. A cleanup whose cutoff is no instant crashes.
def perform (s : Scheduler) : JobWork → JobEnd × Scheduler
  | .ends e => (e, s)
  | .prunes days =>
    match s.clock.now.minusDays? days with
    | none => (.crashed "`DateTime - TimeDelta` overflowed", s)
    | some cutoff =>
      match s.prune cutoff with
      | (.ok removed, s) => (.completed (cleanupSummary removed cutoff), s)
      | (.error e, s) => (.failed (.failed e.message), s)

def invoke (s : Scheduler) (run : Run) (r : ExecutionRecord) : Run × Scheduler :=
  let context := run.context r
  let body := s.bodies context.key.kind (s.callsOf context.key.kind) context
  let events := if context.listened then body.progress.map (⟨r.id, ·⟩) else []
  ({ run with phase := .working r body, events := run.events ++ events },
   { s with invoked := s.invoked ++ [context] })

-- A change of status that the record does not allow ends the run as a refused write does.
def orLeave (change : RunAnswer) (next : ExecutionRecord → Phase) : Phase :=
  match change with
  | .ok r => next r
  | .error e => .leaving (.error e)

def step (s : Scheduler) (run : Run) : Run × Scheduler :=
  match run.phase with
  | .arrived =>
    match s.guards.tryAcquire run.key with
    | some guards => (run.at .admitted, { s with guards })
    | none => (run.at .turnedAway, s)
  | .turnedAway =>
    match s.create run.new with
    | (.error e, s) => (run.at (.returned (.error e)), s)
    | (.ok r, s) =>
      match r.skip alreadyRunning s.clock.now with
      | .ok r => (run.at (.skipping r), s)
      | .error e => (run.at (.returned (.error e)), s)
  | .skipping r =>
    match s.update r with
    | (.ok (), s) => (run.at (.returned (.ok r)), s)
    | (.error e, s) => (run.at (.unskipped r e), s)
  | .unskipped r cause =>
    let (_, s) := s.update r
    (run.at (.returned (.error cause)), s)
  | .admitted =>
    match s.create run.new with
    | (.error e, s) => (run.at (.leaving (.error e)), s)
    | (.ok r, s) => (run.at (orLeave (r.start s.clock.now) .starting), s)
  | .starting r =>
    match s.update r with
    | (.ok (), s) => (run.at (.ready r), s)
    | (.error e, s) => (run.at (.unstarted r e), s)
  | .unstarted r cause =>
    match r.fail ("could not record start: " ++ cause.message) s.clock.now with
    | .ok r =>
      let (_, s) := s.update r
      (run.at (.leaving (.error cause)), s)
    | .error _ => (run.at (.leaving (.error cause)), s)
  | .ready r => s.invoke run r
  | .working r body =>
    let (outcome, s) := s.perform body.work
    (run.at (orLeave (r.conclude outcome s.clock.now) .ending), s)
  | .ending r =>
    match s.update r with
    | (.ok (), s) => (run.at (.leaving (.ok r)), s)
    | (.error e, s) => (run.at (.leaving (.error (.store e.message))), s)
  | .leaving answer => (run.at (.returned answer), { s with guards := s.guards.release run.key })
  | .returned _ => (run, s)

def advance : Nat → Scheduler → Run → Run × Scheduler
  | 0, s, run => (run, s)
  | n + 1, s, run =>
    let (run, s) := s.step run
    advance n s run

def complete (s : Scheduler) (run : Run) : Run × Scheduler :=
  advance run.phase.rank s run

end Scheduler

def Run.answer (run : Run) : RunAnswer :=
  match run.phase with
  | .returned answer => answer
  | _ => .error (.store "execution has not ended")

namespace Scheduler

def run (s : Scheduler) (new : NewExecution) (listened : Bool := false) :
    (RunAnswer × List ProgressEvent) × Scheduler :=
  let (run, s) := s.complete { new, listened }
  ((run.answer, run.events), s)

def isRunning (s : Scheduler) (k : ScheduleKey) : Bool :=
  s.guards.isHeld k

end Scheduler

end FleetOps
