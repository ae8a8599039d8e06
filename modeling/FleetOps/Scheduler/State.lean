import FleetOps.Schedule.Descriptor
import FleetOps.Scheduler.Fault
import FleetOps.Scheduler.Guard
import FleetOps.Scheduler.Job
import FleetOps.Scheduler.Registry
import FleetOps.Store

set_option autoImplicit false

namespace FleetOps

structure Scheduler where
  clock : Clock
  store : Store
  descriptors : DescriptorTable
  faults : Faults := .none
  guards : GuardTable := .empty
  registry : Registry := .empty
  bodies : JobBodies
  invoked : List JobContext := []
  pageLimit : Nat := ExecutionQuery.defaultLimit

namespace Scheduler

def injected (p : FaultPoint) : SchedulerError :=
  .store ("injected " ++ p.name ++ " failure")

/-- Makes a call unless a fault is due at its point. -/
def attempt {α : Type} (s : Scheduler) (p : FaultPoint)
    (call : Scheduler → Except SchedulerError α × Scheduler) : Except SchedulerError α × Scheduler :=
  let passed := { s with faults := s.faults.passed p }
  if s.faults.due p then (.error (injected p), passed) else call passed

def onStore {α : Type} (call : Store → Except SchedulerError α × Store) (s : Scheduler) :
    Except SchedulerError α × Scheduler :=
  let (answer, store) := call s.store
  (answer, { s with store })

def create (s : Scheduler) (new : NewExecution) : Except SchedulerError ExecutionRecord × Scheduler :=
  s.attempt .create (onStore fun store => store.create new s.clock.now)

def update (s : Scheduler) (r : ExecutionRecord) : Except SchedulerError Unit × Scheduler :=
  s.attempt .update (onStore fun store => store.update r)

def get (s : Scheduler) (id : ExecutionId) :
    Except SchedulerError (Option ExecutionRecord) × Scheduler :=
  s.attempt .get (onStore fun store => (store.find? id, store))

def query (s : Scheduler) (q : ExecutionQuery) : Except SchedulerError ExecutionPage × Scheduler :=
  s.attempt .query (onStore fun store => (store.query Folder.entries q, store))

def prune (s : Scheduler) (cutoff : Instant) : Except SchedulerError Nat × Scheduler :=
  s.attempt .prune (onStore fun store => store.prune Folder.entries cutoff)

def describe (s : Scheduler) (k : ScheduleKey) :
    Except SchedulerError (Option Descriptor) × Scheduler :=
  s.attempt .descriptorGet fun s => (.ok (s.descriptors.get? k), s)

def listEnabled (s : Scheduler) : Except SchedulerError (List Descriptor) × Scheduler :=
  s.attempt .descriptorList fun s => (.ok s.descriptors.enabled, s)

def setEnabled (s : Scheduler) (k : ScheduleKey) (enabled : Bool) :
    Except SchedulerError (Option Descriptor) × Scheduler :=
  s.attempt .descriptorSet fun s =>
    let passed := { s with faults := s.faults.passed .descriptorVanish }
    if s.faults.due .descriptorVanish then (.ok none, passed)
    else
      let table := s.descriptors.setEnabled k enabled
      (.ok (table.get? k), { passed with descriptors := table })

def register (s : Scheduler) (k : ScheduleKey) (override : Option EnvironmentId) :
    Except SchedulerError Bool × Scheduler :=
  match s.describe k with
  | (.error e, s) => (.error e, s)
  | (.ok none, s) => (.error (.scheduleNotFound k.text), s)
  | (.ok (some d), s) =>
    let (answer, registry) := s.registry.follow k d override s.clock
    (answer, { s with registry })

def unregister (s : Scheduler) (k : ScheduleKey) : Bool × Scheduler :=
  (s.registry.isArmed k, { s with registry := s.registry.disarm k })

-- A descriptor that cannot be armed does not keep the others from it.
def registerEach (s : Scheduler) : List Descriptor → Nat × Scheduler
  | [] => (0, s)
  | d :: rest =>
    let (answer, s) := s.register d.key d.environment
    let (count, s) := s.registerEach rest
    match answer with
    | .ok true => (count + 1, s)
    | _ => (count, s)

def start (s : Scheduler) : Except SchedulerError Nat × Scheduler :=
  match s.listEnabled with
  | (.error e, s) => (.error e, s)
  | (.ok ds, s) =>
    let (count, s) := s.registerEach ds
    (.ok count, s)

def shutdown (s : Scheduler) : Scheduler :=
  { s with registry := s.registry.shutdown }

end Scheduler

end FleetOps
