import FleetOps.Proofs.Execution.Content
import FleetOps.Store

set_option autoImplicit false

namespace FleetOps

inductive StoreCall where
  | create (new : NewExecution) (now : Instant)
  | update (r : ExecutionRecord)
  | get (id : ExecutionId)
  | query (q : ExecutionQuery)
  | prune (cutoff : Instant)

inductive StoreAnswer where
  | created (answer : Except SchedulerError ExecutionRecord)
  | updated (answer : Except SchedulerError Unit)
  | got (answer : Except SchedulerError (Option ExecutionRecord))
  | page (answer : Except SchedulerError ExecutionPage)
  | pruned (answer : Except SchedulerError Nat)

namespace StoreCall

def creates : StoreCall → Bool
  | .create _ _ => true
  | _ => false

def Storable : StoreCall → Prop
  | .create new now => ∀ id, (ExecutionRecord.queued id new now).Storable
  | .update r => r.Storable
  | _ => True

end StoreCall

def Listing.Complete (listing : Listing) : Prop :=
  ∀ d, (listing d).Perm d.entries

namespace Store

def lastId : Store → Nat
  | .memory m => m.lastId
  | .files f => f.lastId

def serve (s : Store) (listing : Listing) : StoreCall → StoreAnswer × Store
  | .create new now => (s.create new now).map .created id
  | .update r => (s.update r).map .updated id
  | .get id => (.got (s.find? id), s)
  | .query q => (.page (s.query listing q), s)
  | .prune cutoff => (s.prune listing cutoff).map .pruned id

/-- The answers to some calls, one after another. Each call finds its own listing, which is told by the
number of calls that are still to come. -/
def answers (listings : Nat → Listing) : Store → List StoreCall → List StoreAnswer
  | _, [] => []
  | s, c :: rest =>
    let (answer, s) := s.serve (listings rest.length) c
    answer :: answers listings s rest

end Store

end FleetOps
