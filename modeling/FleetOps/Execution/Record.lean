import FleetOps.Instant
import FleetOps.Schedule.Error

set_option autoImplicit false

namespace FleetOps

def alreadyRunning : String :=
  "Schedule is already running"

structure NewExecution where
  key : ScheduleKey
  environment : Option EnvironmentId
  trigger : TriggerSource
deriving DecidableEq, Repr

structure ExecutionRecord where
  id : ExecutionId
  kind : ScheduleKind
  scheduleId : ScheduleId
  environment : Option EnvironmentId
  trigger : TriggerSource
  status : ExecutionStatus
  createdAt : Instant
  startedAt : Option Instant
  finishedAt : Option Instant
  result : Option Json
  error : Option String
deriving Repr

namespace ExecutionRecord

def queued (id : ExecutionId) (new : NewExecution) (now : Instant) : ExecutionRecord :=
  { id, kind := new.key.kind, scheduleId := new.key.id, environment := new.environment,
    trigger := new.trigger, status := .queued, createdAt := now, startedAt := none,
    finishedAt := none, result := none, error := none }

def key (r : ExecutionRecord) : ScheduleKey :=
  ⟨r.kind, r.scheduleId⟩

def become (r : ExecutionRecord) (next : ExecutionStatus) : Except SchedulerError ExecutionRecord :=
  if r.status.canBecome next then .ok { r with status := next }
  else .error (.invalidTransition r.id r.status next)

def start (r : ExecutionRecord) (now : Instant) : Except SchedulerError ExecutionRecord := do
  let r ← r.become .running
  return { r with startedAt := some now }

def succeed (r : ExecutionRecord) (summary : Json) (now : Instant) :
    Except SchedulerError ExecutionRecord := do
  let r ← r.become .success
  return { r with result := some summary, finishedAt := some now }

def fail (r : ExecutionRecord) (message : String) (now : Instant) :
    Except SchedulerError ExecutionRecord := do
  let r ← r.become .failed
  return { r with error := some message, finishedAt := some now }

def reasonJson (reason : String) : Json :=
  .obj [("reason", .str reason)]

def skip (r : ExecutionRecord) (reason : String) (now : Instant) :
    Except SchedulerError ExecutionRecord := do
  let r ← r.become .skipped
  return { r with result := some (reasonJson reason), finishedAt := some now }

inductive Change where
  | start
  | succeed (summary : Json)
  | fail (message : String)
  | skip (reason : String)
deriving Repr

def Change.target : Change → ExecutionStatus
  | .start => .running
  | .succeed _ => .success
  | .fail _ => .failed
  | .skip _ => .skipped

def apply (r : ExecutionRecord) (change : Change) (now : Instant) :
    Except SchedulerError ExecutionRecord :=
  match change with
  | .start => r.start now
  | .succeed summary => r.succeed summary now
  | .fail message => r.fail message now
  | .skip reason => r.skip reason now

def skipReason (r : ExecutionRecord) : Option String :=
  if r.status = .skipped then (r.result.bind (·.get? "reason")).bind Json.str? else none

def wasBusy (r : ExecutionRecord) : Bool :=
  r.skipReason = some alreadyRunning

def fields (r : ExecutionRecord) : List (String × Option Json) := [
  ("id", some (.nat r.id)),
  ("schedule_type", some r.kind.toJson),
  ("schedule_id", some r.scheduleId.toJson),
  ("environment_id", some (.ofOption .nat r.environment)),
  ("trigger", some r.trigger.toJson),
  ("status", some r.status.toJson),
  ("created_at", some (.str r.createdAt.text)),
  ("started_at", some (.ofOption (fun t : Instant => .str t.text) r.startedAt)),
  ("finished_at", some (.ofOption (fun t : Instant => .str t.text) r.finishedAt)),
  ("result", r.result),
  ("error", r.error.map .str)]

def toJson (r : ExecutionRecord) : Json :=
  .ofMembers r.fields

def instantOfJson? (v : Json) : Option Instant :=
  v.str?.bind Instant.read?

def fieldNames : List String :=
  ["id", "schedule_type", "schedule_id", "environment_id", "trigger", "status", "created_at",
   "started_at", "finished_at", "result", "error"]

def ofJson? (v : Json) : Option ExecutionRecord := do
  let f ← Json.Fields.of? fieldNames v
  let id ← f.required "id" idOfJson?
  let kind ← f.required "schedule_type" ScheduleKind.ofJson?
  let scheduleId ← f.required "schedule_id" ScheduleId.ofJson?
  let environment ← f.optional "environment_id" idOfJson?
  let trigger ← f.required "trigger" TriggerSource.ofJson?
  let status ← f.required "status" ExecutionStatus.ofJson?
  let createdAt ← f.required "created_at" instantOfJson?
  let startedAt ← f.optional "started_at" instantOfJson?
  let finishedAt ← f.optional "finished_at" instantOfJson?
  let result ← f.optional "result" some
  let error ← f.optional "error" Json.str?
  some { id, kind, scheduleId, environment, trigger, status, createdAt, startedAt, finishedAt,
         result, error }

end ExecutionRecord

end FleetOps
