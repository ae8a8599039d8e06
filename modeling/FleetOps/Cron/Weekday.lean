import FleetOps.Schedule.Error

set_option autoImplicit false

namespace FleetOps.Cron.Weekday

def names : List String :=
  ["Sun", "Mon", "Tue", "Wed", "Thu", "Fri", "Sat"]

def lastNumber : Nat := 7

structure Span where
  first : Nat
  last : Nat
  step : Nat
deriving DecidableEq, Repr

def Span.selects (s : Span) (n : Nat) : Bool :=
  s.first ≤ n && n ≤ s.last && (n - s.first) % s.step = 0

def cut (mark : Char) (cs : List Char) : Option (List Char × List Char) :=
  if cs.contains mark then
    some (cs.takeWhile (· ≠ mark), (cs.dropWhile (· ≠ mark)).drop 1)
  else none

def stepBound : Nat := 4294967296

def readDay (cs : List Char) : Except CronError Nat :=
  match Text.numeral? (lastNumber + 1) (String.ofList cs) with
  | some n => .ok n
  | none => .error (.weekday (String.ofList cs))

def readStep (cs : List Char) : Except CronError Nat :=
  match Text.numeral? stepBound (String.ofList cs) with
  | none => .error (.weekdayStep (String.ofList cs))
  | some 0 => .error .weekdayStepZero
  | some n => .ok n

-- A day with a step runs to the end of the week.
def readRange (range : List Char) (stepped : Bool) : Except CronError (Nat × Nat) := do
  if range = ['*'] then return (0, 6)
  match cut '-' range with
  | some (first, last) =>
    let first ← readDay first
    let last ← readDay last
    if last < first then throw (.weekdayRange (String.ofList range))
    return (first, last)
  | none =>
    let day ← readDay range
    return (day, if stepped then max 6 day else day)

def readSpan (part : List Char) : Except CronError Span := do
  match cut '/' part with
  | some (range, step) =>
    let step ← readStep step
    let (first, last) ← readRange range true
    return { first, last, step }
  | none =>
    let (first, last) ← readRange part false
    return { first, last, step := 1 }

def hasLetter (part : List Char) : Bool :=
  part.any Char.isAlpha

def selected (spans : List Span) (weekday : Nat) : Bool :=
  spans.any fun s => (List.range (lastNumber + 1)).any fun n => n % 7 = weekday && s.selects n

def selectedNames (spans : List Span) : List String :=
  (List.range 7).filterMap fun d => if selected spans d then names[d]? else none

def spelled (field : String) : Except CronError String := do
  if field = "*" ∨ field = "?" then return field
  let parts := Text.pieces (· == ',') field.toList
  let spans ← (parts.filter (!hasLetter ·)).mapM readSpan
  let named := (parts.filter hasLetter).map String.ofList
  return ",".intercalate (selectedNames spans ++ named)

end FleetOps.Cron.Weekday
