import FleetOps.Execution.Trigger
import FleetOps.Scheduler.Run

set_option autoImplicit false

namespace FleetOps

structure Triggered where
  result : TriggerResult
  events : List ProgressEvent := []
deriving Repr

namespace Scheduler

def rejection (e : SchedulerError) : Triggered :=
  { result := .rejected e }

def runFor (s : Scheduler) (new : NewExecution) (listened : Bool := false) : Triggered × Scheduler :=
  match s.run new listened with
  | ((.ok r, events), s) => ({ result := .ofRecord r, events }, s)
  | ((.error e, events), s) => ({ result := .rejected e, events }, s)

/--
Runs a schedule that has a descriptor. The run is in the environment that the armed timer fires under,
or in the descriptor's if there is none.
-/
def triggerDescribed (s : Scheduler) (k : ScheduleKey) (trigger : TriggerSource)
    (listened : Bool := false) : Triggered × Scheduler :=
  match s.describe k with
  | (.error e, s) => (rejection e, s)
  | (.ok none, s) => (rejection (.scheduleNotFound k.text), s)
  | (.ok (some d), s) =>
    let environment := (s.registry.environment? k).getD d.environment
    s.runFor { key := k, environment, trigger } listened

def triggerContainerUpdate (s : Scheduler) (id : Nat) : Triggered × Scheduler :=
  s.triggerDescribed ⟨.containerUpdate, .numeric id⟩ .manual

def triggerStackSync (s : Scheduler) (id : Nat) (listened : Bool := false) : Triggered × Scheduler :=
  s.triggerDescribed ⟨.gitStackSync, .numeric id⟩ .manual listened

def triggerStackWebhook (s : Scheduler) (id : Nat) : Triggered × Scheduler :=
  s.triggerDescribed ⟨.gitStackSync, .numeric id⟩ .webhook

def triggerSystemJob (s : Scheduler) (name : String) : Triggered × Scheduler :=
  match SystemJob.parse name with
  | .error e => (rejection e, s)
  | .ok job => s.runFor { key := job.key, environment := none, trigger := .manual }

def triggerUpdateCheck (s : Scheduler) (environment : EnvironmentId) : Triggered × Scheduler :=
  s.runFor { key := ⟨.envUpdateCheck, .numeric environment⟩, environment := some environment,
             trigger := .manual }

/--
Runs a schedule that is named by its kind and the text of its id. All ids but those of the system jobs
are numbers here. Of the kinds only the stack syncs have webhooks.
-/
def triggerNamed (s : Scheduler) (kind : ScheduleKind) (id : String) (webhook : Bool) :
    Except Text.NumeralError Triggered × Scheduler :=
  match kind, Text.readNumeral Text.idBound id with
  | .systemCleanup, _ => let (t, s) := s.triggerSystemJob id; (.ok t, s)
  | _, .error e => (.error e, s)
  | .containerUpdate, .ok n => let (t, s) := s.triggerContainerUpdate n; (.ok t, s)
  | .envUpdateCheck, .ok n => let (t, s) := s.triggerUpdateCheck n; (.ok t, s)
  | .gitStackSync, .ok n =>
    let (t, s) := if webhook then s.triggerStackWebhook n else s.triggerStackSync n true
    (.ok t, s)

-- A query without a limit gets the page size of the scheduler.
def history (s : Scheduler) (q : ExecutionQuery) : Except SchedulerError ExecutionPage × Scheduler :=
  s.query (q.withLimit s.pageLimit)

end Scheduler

end FleetOps
