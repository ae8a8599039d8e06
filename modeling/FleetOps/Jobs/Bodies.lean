import FleetOps.Jobs.Command
import FleetOps.Schedule.SystemJob

set_option autoImplicit false

namespace FleetOps

def cleanupBody (retentionDays : Nat) (c : JobContext) : JobBody :=
  match SystemJob.ofId? c.key.id with
  | some .scheduleCleanup => { work := .prunes retentionDays }
  | some job => { work := .ends (.nothingToDo (job.name ++ " has no local state")) }
  | none => { work := .ends (.failed (.failed ("unknown system job '" ++ c.key.id.text ++ "'"))) }

def Settings.bodies (s : Settings) (starter : Starter) : JobBodies :=
  fun kind _ c =>
    match kind with
    | .systemCleanup => cleanupBody s.scheduler.retentionDays c
    | _ => commandJob starter kind (s.jobs.command? kind) c

end FleetOps
