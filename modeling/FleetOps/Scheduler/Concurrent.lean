import FleetOps.Scheduler.Run
import FleetOps.Scheduler.Toggle

set_option autoImplicit false

namespace FleetOps

structure Workload where
  scheduler : Scheduler
  runs : List Run := []
  toggles : List Toggle := []

inductive Move where
  | run (i : Nat)
  | toggle (i : Nat)
  | clock (now : Instant)
deriving DecidableEq, Repr

namespace Workload

-- A move of somebody who is not there changes nothing.
def move (w : Workload) : Move → Workload
  | .run i =>
    match w.runs[i]? with
    | none => w
    | some run =>
      let (run, scheduler) := w.scheduler.step run
      { w with scheduler, runs := w.runs.set i run }
  | .toggle i =>
    match w.toggles[i]? with
    | none => w
    | some toggle =>
      let (toggle, scheduler) := w.scheduler.stepToggle toggle
      { w with scheduler, toggles := w.toggles.set i toggle }
  | .clock now => { w with scheduler := { w.scheduler with clock := { w.scheduler.clock with now } } }

def moves (w : Workload) (ms : List Move) : Workload :=
  ms.foldl move w

end Workload

end FleetOps
