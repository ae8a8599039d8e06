import FleetOps.Cron.Schedule

set_option autoImplicit false

namespace FleetOps

def Instant.until (a b : Instant) : Nat :=
  ((b.seconds - a.seconds) * 1000000000 + (b.nanos - a.nanos)).toNat

structure Clock where
  now : Instant
  elapsed : Nat := 0
deriving DecidableEq, Repr

structure Firing where
  instant : Instant
  due : Nat
deriving DecidableEq, Repr

-- A timer without a pending firing has ended: its schedule has no further instant.
structure Timer where
  schedule : Cron.Schedule
  pending : Option Firing
deriving DecidableEq, Repr

abbrev NextInstant :=
  Cron.Schedule → Instant → Option Instant

namespace Timer

/-- Sleeps for the instant that follows `after`; what lies behind the wall clock is due at once. -/
def plan (next : NextInstant) (schedule : Cron.Schedule) (after : Instant) (clock : Clock) : Timer :=
  { schedule,
    pending := (next schedule after).map fun t =>
      { instant := t, due := clock.elapsed + clock.now.until t } }

def start (next : NextInstant) (schedule : Cron.Schedule) (clock : Clock) : Timer :=
  plan next schedule clock.now clock

/-- After a firing, instants up to the wall clock's reading on waking are passed over. -/
def refire (next : NextInstant) (t : Timer) (f : Firing) (woken : Instant) (clock : Clock) : Timer :=
  plan next t.schedule (f.instant.max woken) clock

end Timer

end FleetOps
