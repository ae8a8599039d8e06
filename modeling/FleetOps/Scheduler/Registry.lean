import FleetOps.Schedule.Descriptor
import FleetOps.Scheduler.Timer

set_option autoImplicit false

namespace FleetOps

structure ArmedSchedule where
  key : ScheduleKey
  cron : String
  schedule : Cron.Schedule
  environment : Option EnvironmentId
  token : Nat
deriving DecidableEq, Repr

structure LiveTimer where
  token : Nat
  key : ScheduleKey
  environment : Option EnvironmentId
  timer : Timer
deriving DecidableEq, Repr

structure Registry where
  armed : List ArmedSchedule := []
  timers : List LiveTimer := []
  nextToken : Nat := 0
  isShutDown : Bool := false
deriving DecidableEq, Repr

namespace Registry

def empty : Registry :=
  {}

def armed? (r : Registry) (k : ScheduleKey) : Option ArmedSchedule :=
  r.armed.find? (·.key = k)

def isArmed (r : Registry) (k : ScheduleKey) : Bool :=
  (r.armed? k).isSome

def cancel (r : Registry) (token : Nat) : Registry :=
  { r with timers := r.timers.filter (·.token ≠ token) }

def disarm (r : Registry) (k : ScheduleKey) : Registry :=
  match r.armed? k with
  | none => r
  | some a =>
    let r := r.cancel a.token
    { r with armed := r.armed.filter (·.key ≠ k) }

def insertByKey (a : ArmedSchedule) : List ArmedSchedule → List ArmedSchedule
  | [] => [a]
  | b :: rest => if a.key.before b.key then a :: b :: rest else b :: insertByKey a rest

def arm (r : Registry) (k : ScheduleKey) (cron : String) (schedule : Cron.Schedule)
    (environment : Option EnvironmentId) (clock : Clock) : Registry :=
  let r := r.disarm k
  let token := r.nextToken
  { r with
    armed := insertByKey { key := k, cron, schedule, environment, token } r.armed
    timers := r.timers ++
      [{ token, key := k, environment, timer := .start Cron.Schedule.nextAfter schedule clock }]
    nextToken := token + 1 }

/--
Brings the timer of a key in line with its descriptor and answers whether the key is armed by this. A
disabled schedule is disarmed, if its kind can be disabled at all. A cron text that cannot be read
changes nothing, and after the shutdown nothing is armed.
-/
def follow (r : Registry) (k : ScheduleKey) (d : Descriptor) (override : Option EnvironmentId)
    (clock : Clock) : Except SchedulerError Bool × Registry :=
  if !d.enabled && k.kind.canDisable then (.ok false, r.disarm k)
  else
    match Cron.parse d.cron with
    | .error e => (.error e, r)
    | .ok schedule =>
      if r.isShutDown then (.ok false, r)
      else (.ok true, r.arm k d.cron schedule (override.or d.environment) clock)

def shutdown (r : Registry) : Registry :=
  { r with armed := [], timers := [], isShutDown := true }

def environment? (r : Registry) (k : ScheduleKey) : Option (Option EnvironmentId) :=
  (r.armed? k).map (·.environment)

def nextRun? (r : Registry) (k : ScheduleKey) (now : Instant) : Option Instant :=
  (r.armed? k).bind (·.schedule.nextAfter now)

-- Of two that are due together the older timer fires first.
def earlier (t : LiveTimer) : Option LiveTimer → LiveTimer
  | none => t
  | some u =>
    match t.timer.pending, u.timer.pending with
    | some f, some g => if f.due ≤ g.due then t else u
    | _, _ => u

def nextToFire? (r : Registry) : Option LiveTimer :=
  (r.timers.filter (·.timer.pending.isSome)).foldr (fun t best => some (earlier t best)) none

def refire (r : Registry) (t : LiveTimer) (f : Firing) (clock : Clock) : Registry :=
  { r with
    timers := r.timers.map fun u =>
      if u.token = t.token then
        { u with timer := u.timer.refire Cron.Schedule.nextAfter f clock.now clock }
      else u }

end Registry

end FleetOps
