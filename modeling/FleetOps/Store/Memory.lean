import FleetOps.Execution.Query

set_option autoImplicit false

namespace FleetOps

def ExecutionRecord.checkReplacement (stored new : ExecutionRecord) : Except SchedulerError Unit :=
  if stored.status.isTerminal then .error (.invalidTransition new.id stored.status new.status)
  else .ok ()

def ExecutionRecord.finishedBefore (r : ExecutionRecord) (cutoff : Instant) : Bool :=
  r.status.isTerminal &&
    match r.finishedAt with
    | some t => t.before cutoff
    | none => false

structure MemoryStore where
  records : List ExecutionRecord := []
  lastId : ExecutionId := 0
deriving Repr

namespace MemoryStore

def empty : MemoryStore :=
  {}

def find? (m : MemoryStore) (id : ExecutionId) : Option ExecutionRecord :=
  m.records.find? (·.id = id)

def insertById (r : ExecutionRecord) : List ExecutionRecord → List ExecutionRecord
  | [] => [r]
  | s :: rest =>
    if r.id < s.id then r :: s :: rest
    else if r.id = s.id then r :: rest
    else s :: insertById r rest

def insert (m : MemoryStore) (r : ExecutionRecord) : MemoryStore :=
  { m with records := insertById r m.records }

def create (m : MemoryStore) (new : NewExecution) (now : Instant) : ExecutionRecord × MemoryStore :=
  let r := ExecutionRecord.queued (m.lastId + 1) new now
  (r, { m.insert r with lastId := m.lastId + 1 })

def update (m : MemoryStore) (r : ExecutionRecord) : Except SchedulerError MemoryStore :=
  match m.find? r.id with
  | none => .error (.executionNotFound r.id)
  | some stored => (stored.checkReplacement r).map fun _ => m.insert r

def query (m : MemoryStore) (q : ExecutionQuery) : ExecutionPage :=
  q.apply m.records

def prune (m : MemoryStore) (cutoff : Instant) : Nat × MemoryStore :=
  let kept := m.records.filter fun r => !r.finishedBefore cutoff
  (m.records.length - kept.length, { m with records := kept })

end MemoryStore

end FleetOps
