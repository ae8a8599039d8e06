import FleetOps.Execution.Record

set_option autoImplicit false

namespace FleetOps

structure TriggerResult where
  success : Bool
  executionId : Option ExecutionId := none
  status : Option ExecutionStatus := none
  error : Option String := none
deriving DecidableEq, Repr

namespace TriggerResult

/-- A run that was not needed counts as done; one that found its schedule busy does not. -/
def ofRecord (r : ExecutionRecord) : TriggerResult :=
  let (success, error) := match r.status with
    | .success => (true, none)
    | .skipped => if r.wasBusy then (false, some alreadyRunning) else (true, none)
    | .failed => (false, r.error)
    | .queued | .running => (false, some ("execution ended in status " ++ r.status.name))
  { success, executionId := some r.id, status := some r.status, error }

def rejected (e : SchedulerError) : TriggerResult :=
  { success := false, error := some e.message }

def toJson (t : TriggerResult) : Json :=
  .ofMembers [("success", some (.bool t.success)), ("execution_id", t.executionId.map .nat),
    ("status", t.status.map ExecutionStatus.toJson), ("error", t.error.map .str)]

end TriggerResult

structure ToggleResult where
  success : Bool
  enabled : Bool
  error : Option String := none
deriving DecidableEq, Repr

namespace ToggleResult

def rejected (enabled : Bool) (e : SchedulerError) : ToggleResult :=
  { success := false, enabled, error := some e.message }

def toJson (t : ToggleResult) : Json :=
  .ofMembers [("success", some (.bool t.success)), ("enabled", some (.bool t.enabled)),
    ("error", t.error.map .str)]

end ToggleResult

end FleetOps
