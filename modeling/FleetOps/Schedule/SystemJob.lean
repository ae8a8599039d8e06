import FleetOps.Schedule.Error

set_option autoImplicit false

namespace FleetOps

inductive SystemJob where
  | scheduleCleanup
  | eventCleanup
  | volumeHelperCleanup
deriving DecidableEq, Repr

namespace SystemJob

def all : List SystemJob :=
  [.scheduleCleanup, .eventCleanup, .volumeHelperCleanup]

def name : SystemJob → String
  | .scheduleCleanup => "schedule_cleanup"
  | .eventCleanup => "event_cleanup"
  | .volumeHelperCleanup => "volume_helper_cleanup"

def title : SystemJob → String
  | .scheduleCleanup => "schedule cleanup"
  | .eventCleanup => "event cleanup"
  | .volumeHelperCleanup => "volume helper cleanup"

def defaultCron : SystemJob → String
  | .scheduleCleanup => "0 3 * * *"
  | .eventCleanup => "30 3 * * *"
  | .volumeHelperCleanup => "*/30 * * * *"

def key (j : SystemJob) : ScheduleKey :=
  ⟨.systemCleanup, .named j.name⟩

def ofName? (s : String) : Option SystemJob :=
  all.find? (·.name = s)

def ofId? : ScheduleId → Option SystemJob
  | .named name => ofName? name
  | .numeric _ => none

def parse (s : String) : Except SchedulerError SystemJob :=
  match ofName? (Text.trim s) with
  | some j => .ok j
  | none => .error (.unknownSystemJob s)

end SystemJob

end FleetOps
