import FleetOps.Execution.Query

set_option autoImplicit false

namespace FleetOps

structure ExecutionFilters where
  kind : Option String := none
  id : Option String := none
  environment : Option EnvironmentId := none
  unscoped : Bool := false
  statuses : List String := []
  trigger : Option String := none
  start : Option Instant := none
  stop : Option Instant := none
  limit : Option Nat := none
  offset : Nat := 0
deriving DecidableEq, Repr

inductive FilterError where
  | schedule (e : SchedulerError)
  | name (e : NameError)
  | environmentTwice
  | reversed (start stop : Instant)
deriving DecidableEq, Repr

def FilterError.message : FilterError → String
  | .schedule e => e.message
  | .name e => e.message
  | .environmentTwice => "--env and --no-env are mutually exclusive"
  | .reversed start stop => "--from " ++ start.display ++ " is after --to " ++ stop.display

namespace ExecutionFilters

def readKind (f : ExecutionFilters) : Except FilterError (Option ScheduleKind) :=
  match f.kind with
  | none => .ok none
  | some text => ((ScheduleKind.parse text).map some).mapError .schedule

def readId (f : ExecutionFilters) : Except FilterError (Option ScheduleId) :=
  match f.id with
  | none => .ok none
  | some text => ((ScheduleId.parse text).map some).mapError .schedule

def readEnvironment (f : ExecutionFilters) : Except FilterError EnvironmentFilter :=
  match f.environment, f.unscoped with
  | some _, true => .error .environmentTwice
  | some e, false => .ok (.is e)
  | none, true => .ok .unscoped
  | none, false => .ok .any

def checkTimes (f : ExecutionFilters) : Except FilterError Unit :=
  match f.start, f.stop with
  | some start, some stop => if stop.before start then .error (.reversed start stop) else .ok ()
  | _, _ => .ok ()

def readStatuses : List String → Except FilterError (List ExecutionStatus)
  | [] => .ok []
  | text :: rest => do
    let status ← (ExecutionStatus.parse text).mapError .name
    return status :: (← readStatuses rest)

def readTrigger (f : ExecutionFilters) : Except FilterError (Option TriggerSource) :=
  match f.trigger with
  | none => .ok none
  | some text => ((TriggerSource.parse text).map some).mapError .name

/-- The query of the filters. Where several are at fault, the first in this order is told. -/
def query (f : ExecutionFilters) : Except FilterError ExecutionQuery := do
  let kind ← f.readKind
  let scheduleId ← f.readId
  let environment ← f.readEnvironment
  f.checkTimes
  let statuses ← readStatuses f.statuses
  let trigger ← f.readTrigger
  return { kind, scheduleId, environment, statuses, trigger, start := f.start, stop := f.stop,
           limit := f.limit, offset := some f.offset }

end ExecutionFilters

end FleetOps
