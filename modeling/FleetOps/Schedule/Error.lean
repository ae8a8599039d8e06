import FleetOps.Execution.Status
import FleetOps.Schedule.Kind

set_option autoImplicit false

namespace FleetOps

inductive IoError where
  | notFound
  | permissionDenied
  | alreadyExists
  | notADirectory
  | isADirectory
  | directoryNotEmpty
  | notUtf8
  | badUtf8 (validUpTo : Nat) (errorLength : Option Nat)
  | other (text : String)
deriving DecidableEq, Repr

namespace IoError

def message : IoError → String
  | .notFound => "No such file or directory (os error 2)"
  | .permissionDenied => "Permission denied (os error 13)"
  | .alreadyExists => "File exists (os error 17)"
  | .notADirectory => "Not a directory (os error 20)"
  | .isADirectory => "Is a directory (os error 21)"
  | .directoryNotEmpty => "Directory not empty (os error 39)"
  | .notUtf8 => "stream did not contain valid UTF-8"
  | .badUtf8 start (some n) =>
    "invalid utf-8 sequence of " ++ toString n ++ " bytes from index " ++ toString start
  | .badUtf8 start none => "incomplete utf-8 byte sequence from index " ++ toString start
  | .other text => text

def report (e : IoError) : String :=
  "IO error: " ++ e.message

end IoError

inductive CronError where
  | fieldCount (n : Nat)
  | weekdayStep (text : String)
  | weekdayStepZero
  | weekdayRange (text : String)
  | weekday (text : String)
  | dialect (reason : String)
deriving DecidableEq, Repr

def CronError.message : CronError → String
  | .fieldCount n => "expected 5 to 7 fields, got " ++ toString n
  | .weekdayStep text => "invalid day-of-week step '" ++ text ++ "'"
  | .weekdayStepZero => "day-of-week step cannot be 0"
  | .weekdayRange text => "invalid day-of-week range '" ++ text ++ "'"
  | .weekday text => "invalid day of week '" ++ text ++ "', expected 0-7"
  | .dialect reason => reason

-- The reasons of the two readers below this module are not told apart.
def CronError.outOfDialect : CronError :=
  .dialect "<cron>"

inductive SchedulerError where
  | invalidScheduleId (text : String)
  | unknownScheduleKind (text : String)
  | scheduleNotFound (key : String)
  | invalidCron (expression : String) (reason : CronError)
  | cannotDisableSystemJob (id : String)
  | unknownSystemJob (text : String)
  | invalidTransition (id : ExecutionId) (source target : ExecutionStatus)
  | executionNotFound (id : ExecutionId)
  | store (text : String)
  | io (cause : IoError)
  | serialization (detail : String)
deriving DecidableEq, Repr

namespace SchedulerError

def message : SchedulerError → String
  | .invalidScheduleId text => "Invalid schedule id: '" ++ text ++ "'"
  | .unknownScheduleKind text => "Unknown schedule type: '" ++ text ++ "'"
  | .scheduleNotFound key => "Schedule not found: " ++ key
  | .invalidCron expression reason =>
    "Invalid cron expression '" ++ expression ++ "': " ++ reason.message
  | .cannotDisableSystemJob id => "System job '" ++ id ++ "' cannot be disabled"
  | .unknownSystemJob text => "Unknown system job: '" ++ text ++ "'"
  | .invalidTransition id source target =>
    "Invalid execution transition for #" ++ toString id ++ ": " ++ source.name ++ " -> " ++
      target.name
  | .executionNotFound id => "Execution not found: #" ++ toString id
  | .store text => "Store error: " ++ text
  | .io cause => cause.report
  | .serialization detail => "Serialization error: " ++ detail

def unreadable : SchedulerError :=
  .serialization "<json>"

def isValidation : SchedulerError → Bool
  | .invalidScheduleId _ | .unknownScheduleKind _ | .scheduleNotFound _ | .invalidCron _ _
  | .cannotDisableSystemJob _ | .unknownSystemJob _ => true
  | .invalidTransition _ _ _ | .executionNotFound _ | .store _ | .io _ | .serialization _ => false

end SchedulerError

def ScheduleKind.parse (s : String) : Except SchedulerError ScheduleKind :=
  match parse? s with
  | some kind => .ok kind
  | none => .error (.unknownScheduleKind s)

def ScheduleId.ofName (s : String) : Except SchedulerError ScheduleId :=
  match ofName? s with
  | some id => .ok id
  | none => .error (.invalidScheduleId s)

-- The error shows the text without the blanks around it.
def ScheduleId.parse (s : String) : Except SchedulerError ScheduleId :=
  match parse? s with
  | some id => .ok id
  | none => .error (.invalidScheduleId (Text.trim s))

end FleetOps
