import FleetOps.Schedule.Kind

set_option autoImplicit false

namespace FleetOps

structure GuardTable where
  held : List ScheduleKey := []
deriving DecidableEq, Repr

namespace GuardTable

def empty : GuardTable :=
  {}

def isHeld (g : GuardTable) (k : ScheduleKey) : Bool :=
  g.held.contains k

def tryAcquire (g : GuardTable) (k : ScheduleKey) : Option GuardTable :=
  if g.isHeld k then none else some ⟨k :: g.held⟩

def release (g : GuardTable) (k : ScheduleKey) : GuardTable :=
  ⟨g.held.filter (· ≠ k)⟩

end GuardTable

end FleetOps
