import FleetOps.Cron.Field
import FleetOps.Cron.Weekday
import FleetOps.Instant

set_option autoImplicit false

namespace FleetOps.Cron

structure Schedule where
  source : String
  seconds : List Nat
  minutes : List Nat
  hours : List Nat
  daysOfMonth : List Nat
  months : List Nat
  daysOfWeek : List Nat
  years : List Nat
deriving DecidableEq, Repr

-- Six fields and perhaps the year; without one every year counts.
def readSchedule (source : String) : Option Schedule := do
  let (seconds, cs) ← FieldKind.second.read source.toList
  let (minutes, cs) ← FieldKind.minute.read cs
  let (hours, cs) ← FieldKind.hour.read cs
  let (daysOfMonth, cs) ← FieldKind.dayOfMonth.read cs
  let (months, cs) ← FieldKind.month.read cs
  let (daysOfWeek, cs) ← FieldKind.dayOfWeek.read cs
  let (years, cs) := (FieldKind.year.read cs).getD (FieldKind.year.all, cs)
  if cs.isEmpty then
    some { source, seconds, minutes, hours, daysOfMonth, months, daysOfWeek, years }
  else none

def normalize (expression : String) : Except CronError String :=
  match Text.fields expression with
  | [minute, hour, dayOfMonth, month, dayOfWeek] => do
    let days ← Weekday.spelled dayOfWeek
    return " ".intercalate ["0", minute, hour, dayOfMonth, month, days]
  | fields =>
    if fields.length = 6 ∨ fields.length = 7 then .ok (Text.trim expression)
    else .error (.fieldCount fields.length)

def readNormalized (source : String) : Except CronError Schedule :=
  match readSchedule source with
  | some s => .ok s
  | none => .error .outOfDialect

def parse (expression : String) : Except SchedulerError Schedule :=
  match (normalize expression).bind readNormalized with
  | .ok s => .ok s
  | .error reason => .error (.invalidCron expression reason)

def Schedule.matchesDay (s : Schedule) (d : CivilDate) : Bool :=
  s.years.contains d.year.toNat && 0 ≤ d.year && s.months.contains d.month &&
    s.daysOfMonth.contains d.day && s.daysOfWeek.contains (d.weekday + 1)

-- The first time of day, in seconds, that is selected and not before `start`.
def Schedule.timeFrom (s : Schedule) (start : Nat) : Option Nat :=
  s.hours.findSome? fun h =>
    if h * 3600 + 3599 < start then none
    else s.minutes.findSome? fun m =>
      if h * 3600 + m * 60 + 59 < start then none
      else (s.seconds.find? fun x => start ≤ h * 3600 + m * 60 + x).map (h * 3600 + m * 60 + ·)

def Schedule.dayFrom (s : Schedule) : Nat → Int → Option Int
  | 0, _ => none
  | fuel + 1, day =>
    if s.matchesDay (CivilDate.ofDays day) then some day else s.dayFrom fuel (day + 1)

def endOfYears : Int :=
  CivilDate.toDays ⟨2101, 1, 1⟩

def Schedule.secondFrom (s : Schedule) (start : Int) : Option Int :=
  let today := Int.fdiv start 86400
  let now := (Int.fmod start 86400).toNat
  let onToday := if today < endOfYears ∧ s.matchesDay (CivilDate.ofDays today) then s.timeFrom now
    else none
  match onToday with
  | some time => some (today * 86400 + time)
  | none => do
    let day ← s.dayFrom (endOfYears - (today + 1)).toNat (today + 1)
    let time ← s.timeFrom 0
    some (day * 86400 + time)

/-- The first instant named after `after`; the search begins with its next second, and not before 1970. -/
def Schedule.nextAfter (s : Schedule) (after : Instant) : Option Instant :=
  (s.secondFrom (max 0 (after.seconds + 1))).map fun t => ⟨t, 0⟩

end FleetOps.Cron
