import FleetOps.Text.Blank
import FleetOps.Text.Numeral

set_option autoImplicit false

namespace FleetOps

structure CivilDate where
  year : Int
  month : Nat
  day : Nat
deriving DecidableEq, Repr

namespace CivilDate

def isLeap (year : Int) : Bool :=
  year % 4 = 0 && (year % 100 ≠ 0 || year % 400 = 0)

def daysInMonth (year : Int) : Nat → Nat
  | 1 | 3 | 5 | 7 | 8 | 10 | 12 => 31
  | 4 | 6 | 9 | 11 => 30
  | 2 => if isLeap year then 29 else 28
  | _ => 0

-- Years begin in March, so that the leap day ends one; `153` days make five months.
def toDays (d : CivilDate) : Int :=
  let y := if d.month ≤ 2 then d.year - 1 else d.year
  let era := Int.fdiv y 400
  let yearOfEra := y - era * 400
  let monthFromMarch : Int := (d.month + 9) % 12
  let dayOfYear := (153 * monthFromMarch + 2) / 5 + d.day - 1
  let dayOfEra := yearOfEra * 365 + yearOfEra / 4 - yearOfEra / 100 + dayOfYear
  era * 146097 + dayOfEra - 719468

def ofDays (days : Int) : CivilDate :=
  let z := days + 719468
  let era := Int.fdiv z 146097
  let dayOfEra := z - era * 146097
  let yearOfEra := (dayOfEra - dayOfEra / 1460 + dayOfEra / 36524 - dayOfEra / 146096) / 365
  let dayOfYear := dayOfEra - (365 * yearOfEra + yearOfEra / 4 - yearOfEra / 100)
  let monthFromMarch := (5 * dayOfYear + 2) / 153
  let day := dayOfYear - (153 * monthFromMarch + 2) / 5 + 1
  let month := if monthFromMarch < 10 then monthFromMarch + 3 else monthFromMarch - 9
  let year := yearOfEra + era * 400
  { year := if month ≤ 2 then year + 1 else year, month := month.toNat, day := day.toNat }

def firstYear : Int := -262143

def lastYear : Int := 262142

def isValid (d : CivilDate) : Bool :=
  firstYear ≤ d.year && d.year ≤ lastYear && 1 ≤ d.month && d.month ≤ 12 &&
    1 ≤ d.day && d.day ≤ daysInMonth d.year d.month

def weekday (d : CivilDate) : Nat :=
  ((d.toDays + 4) % 7).toNat

def text (d : CivilDate) : String :=
  let digits := Text.padded 4 d.year.natAbs
  let year := if 0 ≤ d.year ∧ d.year ≤ 9999 then digits
    else if 0 ≤ d.year then "+" ++ digits else "-" ++ digits
  year ++ "-" ++ Text.padded 2 d.month ++ "-" ++ Text.padded 2 d.day

end CivilDate

/--
Seconds since 1970-01-01T00:00:00Z and the nanoseconds past them. A leap second shares the count of
the second before it and has a thousand million nanoseconds more.
-/
structure Instant where
  seconds : Int
  nanos : Nat
deriving DecidableEq, Repr, Inhabited

namespace Instant

def before (a b : Instant) : Bool :=
  a.seconds < b.seconds || (a.seconds = b.seconds && a.nanos < b.nanos)

def atMost (a b : Instant) : Bool :=
  !b.before a

def max (a b : Instant) : Instant :=
  if a.before b then b else a

def date (t : Instant) : CivilDate :=
  CivilDate.ofDays (Int.fdiv t.seconds 86400)

def secondOfDay (t : Instant) : Nat :=
  (Int.fmod t.seconds 86400).toNat

def ofDate (d : CivilDate) (secondOfDay : Nat) (nanos : Nat := 0) : Instant :=
  { seconds := d.toDays * 86400 + secondOfDay, nanos }

def isValid (t : Instant) : Bool :=
  let year := t.date.year
  CivilDate.firstYear ≤ year && year ≤ CivilDate.lastYear

def minusDays? (t : Instant) (days : Nat) : Option Instant :=
  let u : Instant := { t with seconds := t.seconds - days * 86400 }
  if u.isValid then some u else none

-- Three, six or nine places, the fewest that are exact.
def fractionText (nanos : Nat) : String :=
  let n := nanos % 1000000000
  if n = 0 then ""
  else if n % 1000000 = 0 then "." ++ Text.padded 3 (n / 1000000)
  else if n % 1000 = 0 then "." ++ Text.padded 6 (n / 1000)
  else "." ++ Text.padded 9 n

def clockText (t : Instant) : String :=
  let s := t.secondOfDay
  let shown := if 1000000000 ≤ t.nanos then s % 60 + 1 else s % 60
  Text.padded 2 (s / 3600) ++ ":" ++ Text.padded 2 (s / 60 % 60) ++ ":" ++ Text.padded 2 shown ++
    fractionText t.nanos

def text (t : Instant) : String :=
  t.date.text ++ "T" ++ t.clockText ++ "Z"

def display (t : Instant) : String :=
  t.date.text ++ " " ++ t.clockText ++ " UTC"

def readDigits (width : Nat) (cs : List Char) : Option (Nat × List Char) :=
  let ds := (cs.take width).takeWhile Char.isDigit
  if ds.isEmpty then none else some (Text.digitsValue ds, cs.drop ds.length)

def readNumber (width : Nat) (cs : List Char) : Option (Nat × List Char) :=
  readDigits width (Text.trimLeft cs)

-- A signed year may have any number of digits; a bare one has up to four.
def readYear (cs : List Char) : Option (Int × List Char) :=
  match Text.trimLeft cs with
  | '-' :: rest => (readDigits rest.length rest).map fun (n, rest) => (-n, rest)
  | '+' :: rest => (readDigits rest.length rest).map fun (n, rest) => ((n : Int), rest)
  | rest => (readDigits 4 rest).map fun (n, rest) => ((n : Int), rest)

def readMark (mark : Char) (cs : List Char) : Option (List Char) :=
  match Text.trimLeft cs with
  | c :: rest => if c = mark then some rest else none
  | [] => none

def readDate (cs : List Char) : Option (CivilDate × List Char) := do
  let (year, cs) ← readYear cs
  let cs ← readMark '-' cs
  let (month, cs) ← readNumber 2 cs
  let cs ← readMark '-' cs
  let (day, cs) ← readNumber 2 cs
  some ({ year, month, day }, cs)

-- Digits past the ninth are dropped.
def readFraction (cs : List Char) : Option (Nat × List Char) :=
  match cs with
  | '.' :: rest =>
    let ds := rest.takeWhile Char.isDigit
    let kept := ds.take 9
    if ds.isEmpty then none
    else some (Text.digitsValue kept * Nat.pow 10 (9 - kept.length), rest.drop ds.length)
  | _ => some (0, cs)

def readClock (cs : List Char) : Option (Nat × Nat × List Char) := do
  let (hour, cs) ← readNumber 2 cs
  let cs ← readMark ':' cs
  let (minute, cs) ← readNumber 2 cs
  let cs ← readMark ':' cs
  let (second, cs) ← readNumber 2 cs
  let (nanos, cs) ← readFraction cs
  if hour < 24 ∧ minute < 60 ∧ second < 60 then
    some (hour * 3600 + minute * 60 + second, nanos, cs)
  else if hour < 24 ∧ minute < 60 ∧ second = 60 then
    some (hour * 3600 + minute * 60 + 59, 1000000000 + nanos, cs)
  else none

def readTwoDigits (cs : List Char) : Option (Nat × List Char) :=
  match cs with
  | a :: b :: rest =>
    if a.isDigit && b.isDigit then some (Text.digitsValue [a, b], rest) else none
  | _ => none

def readZone (cs : List Char) : Option (Int × List Char) :=
  match Text.trimLeft cs with
  | [] => none
  | c :: rest =>
    if c = 'Z' ∨ c = 'z' then some (0, rest)
    else if ((c :: rest).take 3).map Char.toUpper = ['U', 'T', 'C'] then some (0, rest.drop 2)
    else if c = '+' ∨ c = '-' ∨ c = '−' then do
      let (hours, rest) ← readTwoDigits rest
      let (minutes, rest) ← readTwoDigits
        (rest.dropWhile fun c => c = ':' || Text.isBlank c)
      if minutes < 60 ∧ hours < 24 then
        let offset : Int := hours * 3600 + minutes * 60
        some (if c = '+' then offset else -offset, rest)
      else none
    else none

def isDateEnd (c : Char) : Bool :=
  c = 'T' || c = 't' || c = ' '

def read? (text : String) : Option Instant := do
  let (date, cs) ← readDate text.toList
  match cs with
  | [] => none
  | c :: cs =>
    if !isDateEnd c || !date.isValid then none
    else
      let (clock, nanos, cs) ← readClock cs
      let (offset, cs) ← readZone cs
      if (Text.trimLeft cs).isEmpty then
        let t := ofDate date clock nanos
        let t : Instant := { t with seconds := t.seconds - offset }
        if t.isValid then some t else none
      else none

end Instant

end FleetOps
