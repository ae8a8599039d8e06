import FleetOps.Execution.Record
import FleetOps.Jobs.Process

set_option autoImplicit false

namespace FleetOps

structure JobContext where
  key : ScheduleKey
  environment : Option EnvironmentId
  trigger : TriggerSource
  execution : ExecutionId
  listened : Bool := false
deriving DecidableEq, Repr

inductive JobError where
  | failed (message : String)
  | io (cause : IoError)
deriving DecidableEq, Repr

def JobError.message : JobError → String
  | .failed message => message
  | .io cause => cause.report

inductive JobEnd where
  | completed (summary : Json)
  | nothingToDo (reason : String)
  | failed (e : JobError)
  | crashed (message : String)
deriving Repr

structure JobProgress where
  stage : String
  message : String
deriving DecidableEq, Repr

inductive JobWork where
  | ends (e : JobEnd)
  | prunes (retentionDays : Nat)
deriving Repr

/-- A body reports its progress, waits at its gate if it has one, and then does its work. -/
structure JobBody where
  starts : Option JobProcess := none
  progress : List JobProgress := []
  gated : Bool := false
  work : JobWork
deriving Repr

/-- The body of a kind's n-th call, counted from zero. -/
abbrev JobBodies :=
  ScheduleKind → Nat → JobContext → JobBody

namespace ExecutionRecord

def conclude (r : ExecutionRecord) (e : JobEnd) (now : Instant) :
    Except SchedulerError ExecutionRecord :=
  match e with
  | .completed summary => r.succeed summary now
  | .nothingToDo reason => r.skip reason now
  | .failed cause => r.fail cause.message now
  | .crashed message => r.fail ("job panicked: " ++ message) now

end ExecutionRecord

end FleetOps
