import FleetOps.Execution.Record

set_option autoImplicit false

namespace FleetOps

inductive EnvironmentFilter where
  | any
  | unscoped
  | is (id : EnvironmentId)
deriving DecidableEq, Repr

namespace EnvironmentFilter

def admits : EnvironmentFilter → Option EnvironmentId → Bool
  | .any, _ => true
  | .unscoped, e => e.isNone
  | .is id, e => e = some id

def toJson : EnvironmentFilter → Json
  | .any => .str "any"
  | .unscoped => .str "unscoped"
  | .is id => .obj [("is", .nat id)]

def ofJson? (v : Json) : Option EnvironmentFilter :=
  match v.case? with
  | some ("is", id) => (idOfJson? id).map .is
  | _ =>
    match v.constant? with
    | some "any" => some .any
    | some "unscoped" => some .unscoped
    | _ => none

end EnvironmentFilter

structure ExecutionQuery where
  kind : Option ScheduleKind := none
  scheduleId : Option ScheduleId := none
  environment : EnvironmentFilter := .any
  statuses : List ExecutionStatus := []
  trigger : Option TriggerSource := none
  start : Option Instant := none
  stop : Option Instant := none
  limit : Option Nat := none
  offset : Option Nat := none
deriving DecidableEq, Repr

structure ExecutionPage where
  records : List ExecutionRecord
  total : Nat
  limit : Nat
  offset : Nat
deriving Repr

namespace ExecutionQuery

def defaultLimit : Nat := 50

def admits {α : Type} (filter : Option α) (test : α → Bool) : Bool :=
  match filter with
  | some a => test a
  | none => true

def selects (q : ExecutionQuery) (r : ExecutionRecord) : Bool :=
  admits q.kind (r.kind = ·) &&
  admits q.scheduleId (r.scheduleId = ·) &&
  q.environment.admits r.environment &&
  (q.statuses.isEmpty || q.statuses.contains r.status) &&
  admits q.trigger (r.trigger = ·) &&
  admits q.start (·.atMost r.createdAt) &&
  admits q.stop (r.createdAt.atMost ·)

def newerFirst (a b : ExecutionRecord) : Bool :=
  b.createdAt.before a.createdAt || (a.createdAt = b.createdAt && b.id ≤ a.id)

def ordered (q : ExecutionQuery) (records : List ExecutionRecord) : List ExecutionRecord :=
  (records.filter q.selects).mergeSort newerFirst

def apply (q : ExecutionQuery) (records : List ExecutionRecord) : ExecutionPage :=
  let found := q.ordered records
  let limit := q.limit.getD defaultLimit
  let offset := q.offset.getD 0
  { records := (found.drop offset).take limit, total := found.length, limit, offset }

def withLimit (q : ExecutionQuery) (limit : Nat) : ExecutionQuery :=
  { q with limit := some (q.limit.getD limit) }

def instantJson (t : Instant) : Json :=
  .str t.text

def toJson (q : ExecutionQuery) : Json :=
  .obj [
    ("schedule_type", .ofOption ScheduleKind.toJson q.kind),
    ("schedule_id", .ofOption ScheduleId.toJson q.scheduleId),
    ("environment", q.environment.toJson),
    ("statuses", .arr (q.statuses.map ExecutionStatus.toJson)),
    ("trigger", .ofOption TriggerSource.toJson q.trigger),
    ("from", .ofOption instantJson q.start),
    ("to", .ofOption instantJson q.stop),
    ("limit", .ofOption .nat q.limit),
    ("offset", .ofOption .nat q.offset)]

def fieldNames : List String :=
  ["schedule_type", "schedule_id", "environment", "statuses", "trigger", "from", "to", "limit",
   "offset"]

def ofJson? (v : Json) : Option ExecutionQuery := do
  let f ← Json.Fields.of? fieldNames v
  let kind ← f.optional "schedule_type" ScheduleKind.ofJson?
  let scheduleId ← f.optional "schedule_id" ScheduleId.ofJson?
  let environment ← f.withDefault "environment" EnvironmentFilter.ofJson? .any
  let statuses ← f.withDefault "statuses" (Json.list? ExecutionStatus.ofJson?) []
  let trigger ← f.optional "trigger" TriggerSource.ofJson?
  let start ← f.optional "from" ExecutionRecord.instantOfJson?
  let stop ← f.optional "to" ExecutionRecord.instantOfJson?
  let limit ← f.optional "limit" idOfJson?
  let offset ← f.optional "offset" idOfJson?
  some { kind, scheduleId, environment, statuses, trigger, start, stop, limit, offset }

end ExecutionQuery

namespace ExecutionPage

def toJson (p : ExecutionPage) : Json :=
  .obj [("records", .arr (p.records.map ExecutionRecord.toJson)), ("total", .nat p.total),
    ("limit", .nat p.limit), ("offset", .nat p.offset)]

def ofJson? (v : Json) : Option ExecutionPage := do
  let f ← Json.Fields.of? ["records", "total", "limit", "offset"] v
  let records ← f.required "records" (Json.list? ExecutionRecord.ofJson?)
  let total ← f.required "total" idOfJson?
  let limit ← f.required "limit" idOfJson?
  let offset ← f.required "offset" idOfJson?
  some { records, total, limit, offset }

end ExecutionPage

end FleetOps
