import FleetOps.Execution.Trigger
import FleetOps.Scheduler.State

set_option autoImplicit false

/-!
Switching a schedule on and off, one small step at a time: the descriptor is read, its flag is written,
and the timer is brought in line with the descriptor, which is read anew when a timer is to be armed.
Nothing keeps another toggle of the key from moving between two of these steps.
-/

namespace FleetOps

inductive TogglePhase where
  | asked
  | known (current : Bool)
  -- The flag is written; the descriptor is to be read anew, or the timer to be forgotten.
  | written
  | reread (d : Descriptor)
  | answered (result : ToggleResult)
deriving Repr

def TogglePhase.rank : TogglePhase → Nat
  | .asked => 4
  | .known _ => 3
  | .written => 2
  | .reread _ => 1
  | .answered _ => 0

structure Toggle where
  key : ScheduleKey
  enabled : Bool
  phase : TogglePhase := .asked
deriving Repr

def Toggle.at (t : Toggle) (phase : TogglePhase) : Toggle :=
  { t with phase }

def Toggle.rejectedAs (t : Toggle) (enabled : Bool) (e : SchedulerError) : Toggle :=
  t.at (.answered (.rejected enabled e))

def Toggle.done (t : Toggle) : Toggle :=
  t.at (.answered { success := true, enabled := t.enabled })

def Toggle.missing (t : Toggle) : SchedulerError :=
  .scheduleNotFound t.key.text

namespace Scheduler

def stepToggle (s : Scheduler) (t : Toggle) : Toggle × Scheduler :=
  match t.phase with
  | .asked =>
    match s.describe t.key with
    | (.error e, s) => (t.rejectedAs false e, s)
    | (.ok none, s) => (t.rejectedAs false t.missing, s)
    | (.ok (some d), s) =>
      if !t.enabled && !t.key.kind.canDisable then
        (t.rejectedAs d.enabled (.cannotDisableSystemJob t.key.id.text), s)
      else (t.at (.known d.enabled), s)
  | .known current =>
    match s.setEnabled t.key t.enabled with
    | (.error e, s) => (t.rejectedAs current e, s)
    | (.ok none, s) => (t.rejectedAs current t.missing, s)
    | (.ok (some _), s) => (t.at .written, s)
  | .written =>
    if t.enabled then
      match s.describe t.key with
      | (.error e, s) => (t.rejectedAs true e, s)
      | (.ok none, s) => (t.rejectedAs true t.missing, s)
      | (.ok (some d), s) => (t.at (.reread d), s)
    else (t.done, (s.unregister t.key).2)
  | .reread d =>
    match s.registry.follow t.key d none s.clock with
    | (.error e, registry) => (t.rejectedAs true e, { s with registry })
    | (.ok _, registry) => (t.done, { s with registry })
  | .answered _ => (t, s)

def advanceToggle : Nat → Scheduler → Toggle → Toggle × Scheduler
  | 0, s, t => (t, s)
  | n + 1, s, t =>
    let (t, s) := s.stepToggle t
    advanceToggle n s t

end Scheduler

def Toggle.answer (t : Toggle) : ToggleResult :=
  match t.phase with
  | .answered result => result
  | _ => { success := false, enabled := !t.enabled }

namespace Scheduler

def toggle (s : Scheduler) (k : ScheduleKey) (enabled : Bool) : ToggleResult × Scheduler :=
  let t : Toggle := { key := k, enabled }
  let (t, s) := advanceToggle t.phase.rank s t
  (t.answer, s)

end Scheduler

end FleetOps
