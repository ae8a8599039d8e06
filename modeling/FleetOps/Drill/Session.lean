import FleetOps.Scheduler.Concurrent
import FleetOps.Scheduler.Trigger

set_option autoImplicit false

namespace FleetOps

abbrev Scripts :=
  ScheduleKind → List JobBody

def JobBody.idle : JobBody :=
  { work := .ends (.completed (.obj [])) }

def Scripts.bodies (scripts : Scripts) : JobBodies :=
  fun kind n _ => ((scripts kind)[n]?.or (scripts kind).getLast?).getD .idle

structure Session where
  workload : Workload
  labels : List (String × Nat) := []
  permits : List ScheduleKey := []
  seen : Nat := 0

namespace Session

def scheduler (s : Session) : Scheduler :=
  s.workload.scheduler

def withScheduler (s : Session) (scheduler : Scheduler) : Session :=
  { s with workload := { s.workload with scheduler } }

-- Takes a permit for each gated body among the calls, which follow the calls before them.
def spend (bodies : JobBodies) :
    List JobContext → List JobContext → List ScheduleKey → List ScheduleKey
  | _, [], permits => permits
  | before, c :: rest, permits =>
    let n := (before.filter (·.key.kind = c.key.kind)).length
    let permits := if (bodies c.key.kind n c).gated then permits.erase c.key else permits
    spend bodies (before ++ [c]) rest permits

def act {α : Type} (s : Session) (call : Scheduler → α × Scheduler) : α × Session :=
  let before := s.scheduler
  let (answer, after) := call before
  let calls := after.invoked.drop before.invoked.length
  (answer,
   { s.withScheduler after with permits := spend before.bodies before.invoked calls s.permits })

def look (s : Session) : List JobContext × Session :=
  (s.scheduler.invoked.drop s.seen, { s with seen := s.scheduler.invoked.length })

def atGate (run : Run) : Bool :=
  match run.phase with
  | .working _ body => body.gated
  | _ => false

-- A run at its gate moves on only with a permit for its key.
def nudge (s : Session) (i : Nat) : Session :=
  match s.workload.runs[i]? with
  | none => s
  | some run =>
    if !atGate run then { s with workload := s.workload.move (.run i) }
    else if s.permits.contains run.key then
      { s with workload := s.workload.move (.run i), permits := s.permits.erase run.key }
    else s

def proceed (s : Session) (i : Nat) : Session :=
  Nat.repeat (nudge · i) Phase.arrived.rank s

def launch (s : Session) (new : NewExecution) : Nat × Session :=
  let i := s.workload.runs.length
  (i, proceed { s with workload := { s.workload with runs := s.workload.runs ++ [{ new }] } } i)

def spawn (s : Session) (label : String) (new : NewExecution) : Bool × Session :=
  let (i, s) := s.launch new
  (s.scheduler.isRunning new.key, { s with labels := (label, i) :: s.labels })

def hasReturned (run : Run) : Bool :=
  run.phase.rank = 0

def finish (s : Session) (label : String) : Option (RunAnswer × Session) := do
  let i ← s.labels.lookup label
  let run ← s.workload.runs[i]?
  let s := if hasReturned run then s else { s with permits := run.key :: s.permits }
  let s := s.proceed i
  let run ← s.workload.runs[i]?
  some (run.answer, { s with labels := s.labels.filter (·.1 ≠ label) })

def release (s : Session) (k : ScheduleKey) : Bool × Session :=
  let s := { s with permits := k :: s.permits }
  let s := (List.range s.workload.runs.length).foldl proceed s
  (s.scheduler.isRunning k, s)

def fire (s : Session) : Option Session := do
  let t ← s.scheduler.registry.nextToFire?
  let f ← t.timer.pending
  let clock := { s.scheduler.clock with elapsed := max s.scheduler.clock.elapsed f.due }
  let registry := s.scheduler.registry.refire t f clock
  let s := s.withScheduler { s.scheduler with clock, registry }
  some (s.launch { key := t.key, environment := t.environment, trigger := .cron }).2

def scheduled (s : Session) : Except SchedulerError ExecutionPage :=
  s.scheduler.store.query Folder.entries { trigger := some .cron }

def fireUntil (count : Nat) : Nat → Session → Session
  | 0, s => s
  | fuel + 1, s =>
    match s.scheduled with
    | .error _ => s
    | .ok page =>
      if count ≤ page.total then s
      else
        match s.fire with
        | none => s
        | some s => fireUntil count fuel s

end Session

end FleetOps
