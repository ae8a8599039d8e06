import FleetOps.Store.Files

set_option autoImplicit false

namespace FleetOps

inductive Store where
  | memory (m : MemoryStore)
  | files (f : FileStore)

namespace Store

def create (s : Store) (new : NewExecution) (now : Instant) :
    Except SchedulerError ExecutionRecord × Store :=
  match s with
  | .memory m => let (r, m) := m.create new now; (.ok r, .memory m)
  | .files f => let (answer, f) := f.create new now; (answer, .files f)

def update (s : Store) (r : ExecutionRecord) : Except SchedulerError Unit × Store :=
  match s with
  | .memory m =>
    match m.update r with
    | .ok m => (.ok (), .memory m)
    | .error e => (.error e, .memory m)
  | .files f => let (answer, f) := f.update r; (answer, .files f)

def find? (s : Store) (id : ExecutionId) : Except SchedulerError (Option ExecutionRecord) :=
  match s with
  | .memory m => .ok (m.find? id)
  | .files f => f.find? id

def query (s : Store) (listing : Listing) (q : ExecutionQuery) : Except SchedulerError ExecutionPage :=
  match s with
  | .memory m => .ok (m.query q)
  | .files f => f.query listing q

def prune (s : Store) (listing : Listing) (cutoff : Instant) : Except SchedulerError Nat × Store :=
  match s with
  | .memory m => let (n, m) := m.prune cutoff; (.ok n, .memory m)
  | .files f => let (answer, f) := f.prune listing cutoff; (answer, .files f)

end Store

end FleetOps
