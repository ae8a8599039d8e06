import FleetOps.Cron.Schedule
import FleetOps.Schedule.SystemJob
import FleetOps.Settings.Schema

set_option autoImplicit false

namespace FleetOps

structure Descriptor where
  kind : ScheduleKind
  id : ScheduleId
  environment : Option EnvironmentId := none
  cron : String
  enabled : Bool := true
  name : Option String := none
deriving DecidableEq, Repr

namespace Descriptor

def key (d : Descriptor) : ScheduleKey :=
  ⟨d.kind, d.id⟩

def toJson (d : Descriptor) : Json :=
  .obj [("kind", d.kind.toJson), ("id", d.id.toJson),
    ("environment_id", .ofOption .nat d.environment), ("cron", .str d.cron),
    ("enabled", .bool d.enabled), ("name", .ofOption .str d.name)]

def ofJson? (v : Json) : Option Descriptor := do
  let f ← Json.Fields.of? ["kind", "id", "environment_id", "cron", "enabled", "name"] v
  let kind ← f.required "kind" ScheduleKind.ofJson?
  let id ← f.required "id" ScheduleId.ofJson?
  let environment ← f.optional "environment_id" idOfJson?
  let cron ← f.required "cron" Json.str?
  let enabled ← f.required "enabled" Json.bool?
  let name ← f.optional "name" Json.str?
  some { kind, id, environment, cron, enabled, name }

def ofSystemJob (j : SystemJob) : Descriptor :=
  { kind := j.key.kind, id := j.key.id, cron := j.defaultCron, name := some j.title }

def idOfSettings : ScheduleId → Except SchedulerError ScheduleId
  | .numeric n => .ok (.numeric n)
  | .named text => ScheduleId.parse text

-- An update check without an environment checks the one that it is numbered by.
def environmentOf (kind : ScheduleKind) (id : ScheduleId) (given : Option EnvironmentId) :
    Option EnvironmentId :=
  match kind, id, given with
  | _, _, some e => some e
  | .envUpdateCheck, .numeric n, none => some n
  | _, _, none => none

def ofSettings (s : ScheduleSettings) : Except SchedulerError Descriptor := do
  let kind ← ScheduleKind.parse s.kind
  let id ← idOfSettings s.id
  if kind = .systemCleanup ∧ SystemJob.ofId? id = none then
    throw (.unknownSystemJob id.text)
  let _ ← Cron.parse s.cron
  return { kind, id, environment := environmentOf kind id s.environment, cron := s.cron,
           enabled := s.enabled, name := s.name }

end Descriptor

structure DescriptorTable where
  entries : List Descriptor
deriving DecidableEq, Repr

namespace DescriptorTable

def empty : DescriptorTable :=
  ⟨[]⟩

def get? (t : DescriptorTable) (k : ScheduleKey) : Option Descriptor :=
  t.entries.find? (·.key = k)

def insertSorted (d : Descriptor) : List Descriptor → List Descriptor
  | [] => [d]
  | e :: rest =>
    if d.key = e.key then d :: rest
    else if d.key.before e.key then d :: e :: rest
    else e :: insertSorted d rest

def upsert (t : DescriptorTable) (d : Descriptor) : DescriptorTable :=
  ⟨insertSorted d t.entries⟩

def remove (t : DescriptorTable) (k : ScheduleKey) : DescriptorTable :=
  ⟨t.entries.filter (·.key ≠ k)⟩

def enabled (t : DescriptorTable) : List Descriptor :=
  t.entries.filter (·.enabled)

def setEnabled (t : DescriptorTable) (k : ScheduleKey) (enabled : Bool) : DescriptorTable :=
  ⟨t.entries.map fun d => if d.key = k then { d with enabled } else d⟩

def ofList (ds : List Descriptor) : DescriptorTable :=
  ds.foldl upsert empty

def systemJobs : DescriptorTable :=
  ofList (SystemJob.all.map Descriptor.ofSystemJob)

-- The flag of a system job is not taken from the settings.
def forced (d : Descriptor) : Descriptor :=
  if d.kind.canDisable then d else { d with enabled := true }

/-- The system jobs, and over them the schedules of the settings in their order. -/
def ofSettings (schedules : List ScheduleSettings) : Except SchedulerError DescriptorTable := do
  let ds ← schedules.mapM Descriptor.ofSettings
  return (ds.map forced).foldl upsert systemJobs

end DescriptorTable

end FleetOps
