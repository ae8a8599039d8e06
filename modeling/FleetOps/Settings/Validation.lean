import FleetOps.Access.Model
import FleetOps.Schedule.Descriptor

set_option autoImplicit false

namespace FleetOps

structure Finding where
  path : String
  message : String
deriving DecidableEq, Repr

structure Report where
  errors : List Finding := []
  warnings : List Finding := []
deriving DecidableEq, Repr

def Report.isValid (r : Report) : Bool :=
  r.errors.isEmpty

def Report.append (a b : Report) : Report :=
  ⟨a.errors ++ b.errors, a.warnings ++ b.warnings⟩

namespace Report

def all (rs : List Report) : Report :=
  rs.foldl append {}

def error (path message : String) : Report :=
  { errors := [⟨path, message⟩] }

def warning (path message : String) : Report :=
  { warnings := [⟨path, message⟩] }

def errorIf (condition : Bool) (path message : String) : Report :=
  if condition then error path message else {}

def warningIf (condition : Bool) (path message : String) : Report :=
  if condition then warning path message else {}

end Report

namespace Validation

open Report

def isBlankText (s : String) : Bool :=
  (Text.trim s).isEmpty

def indexed (name : String) (i : Nat) : String :=
  name ++ "[" ++ toString i ++ "]"

def wordList (words : List String) : String :=
  "[" ++ ", ".intercalate (words.map fun w => "\"" ++ w ++ "\"") ++ "]"

def rolePath (name : String) : String :=
  "auth.roles." ++ name ++ ".grants"

def emptyGrants (role : String × RoleSettings) : List Finding :=
  role.2.grants.zipIdx.filterMap fun (g, i) =>
    if isBlankText g.resource || isBlankText g.action then
      some ⟨indexed (rolePath role.1) i, "Grant resource and action cannot be empty"⟩
    else none

def byPath (fs : List Finding) : List Finding :=
  fs.mergeSort fun a b => a.path ≤ b.path

def builtinRoles : List String :=
  ["admin", "operator", "viewer"]

def isDefinedRole (auth : AuthSettings) (role : String) : Bool :=
  auth.roles.any (·.1 = role) || builtinRoles.contains role

def undefinedRole (auth : AuthSettings) (path role : String) : Report :=
  warningIf (!isDefinedRole auth role) (path ++ ".roles")
    ("Role '" ++ role ++ "' is not defined and grants nothing")

-- `earlier` are the tokens of the users before this one.
def checkUser (s : Settings) (earlier : List String) (i : Nat) (u : UserSettings) : Report :=
  let path := indexed "auth.users" i
  all <|
    [errorIf (isBlankText u.name) (path ++ ".name") "User name cannot be empty",
     errorIf (u.token.any earlier.contains) (path ++ ".token")
       "Session token is shared with another user"] ++
    u.roles.map (undefinedRole s.auth path) ++
    [warningIf (!u.environments.isEmpty && !s.license.enterprise) (path ++ ".environments")
       "Environment assignments only apply with an Enterprise license"]

def checkUsers (s : Settings) : List String → Nat → List UserSettings → Report
  | _, _, [] => {}
  | earlier, i, u :: rest =>
    (checkUser s earlier i u).append (checkUsers s (earlier ++ u.token.toList) (i + 1) rest)

def checkAuth (s : Settings) : Report :=
  all [
    warningIf (!s.auth.enabled && !s.auth.users.isEmpty) "auth.enabled"
      "Users are configured but authorization is disabled; every check will be allowed",
    { errors := byPath (s.auth.roles.flatMap emptyGrants) },
    checkUsers s [] 0 s.auth.users]

def checkScheduler (s : SchedulerSettings) : Report :=
  all [
    errorIf (s.pageLimit = 0) "scheduler.page_limit" "page_limit must be greater than 0",
    errorIf (s.retentionDays = 0) "scheduler.retention_days"
      "retention_days must be greater than 0"]

def kindNames : List String :=
  ScheduleKind.all.map (·.name)

def needsCommand (jobs : JobSettings) (kind : String) : Bool :=
  match ScheduleKind.ofName? kind with
  | none | some .systemCleanup => false
  | some k => (jobs.command? k).isNone

def checkSchedule (jobs : JobSettings) (earlier : List (String × String)) (i : Nat)
    (s : ScheduleSettings) : Report :=
  let path := indexed "schedules" i
  let fields := (Text.fields s.cron).length
  all [
    errorIf (!kindNames.contains s.kind) (path ++ ".kind")
      ("Unknown schedule kind '" ++ s.kind ++ "', valid values: " ++ wordList kindNames),
    errorIf (fields < 5 || 7 < fields) (path ++ ".cron")
      ("Cron expression '" ++ s.cron ++ "' has " ++ toString fields ++ " fields, expected 5 to 7"),
    errorIf (earlier.contains (s.kind, s.id.text)) (path ++ ".id")
      ("Duplicate schedule " ++ s.kind ++ ":" ++ s.id.text),
    warningIf (s.kind = ScheduleKind.systemCleanup.name && !s.enabled) (path ++ ".enabled")
      "System cleanup jobs cannot be disabled; the flag is ignored",
    warningIf (needsCommand jobs s.kind) (path ++ ".kind")
      ("No [jobs." ++ s.kind ++ "] command configured; runs will be skipped")]

def checkSchedules (jobs : JobSettings) :
    List (String × String) → Nat → List ScheduleSettings → Report
  | _, _, [] => {}
  | earlier, i, s :: rest =>
    (checkSchedule jobs earlier i s).append
      (checkSchedules jobs (earlier ++ [(s.kind, s.id.text)]) (i + 1) rest)

def logLevels : List String :=
  ["trace", "debug", "info", "warn", "error"]

-- Only a bare level is checked, not a list of directives.
def checkLogging (l : LoggingSettings) : Report :=
  errorIf (!l.level.contains '=' && !l.level.contains ',' && !logLevels.contains l.level)
    "logging.level"
    ("Unknown log level '" ++ l.level ++ "', valid values: " ++ wordList logLevels)

end Validation

open Validation in
def Settings.validate (s : Settings) : Report :=
  Report.all [checkAuth s, checkScheduler s.scheduler, checkSchedules s.jobs [] 0 s.schedules,
    checkLogging s.logging]

namespace Validation

def faultyRole (role : String × RoleSettings) : Option Finding :=
  match Access.Model.empty.roleOfSettings role.1 role.2 with
  | .ok _ => none
  | .error e => some ⟨rolePath role.1, e.message⟩

def faultySchedule (entry : ScheduleSettings × Nat) : Option Finding :=
  match Descriptor.ofSettings entry.1 with
  | .ok _ => none
  | .error e => some ⟨indexed "schedules" entry.2, e.message⟩

def byName (roles : List (String × RoleSettings)) : List (String × RoleSettings) :=
  roles.mergeSort fun a b => a.1 ≤ b.1

end Validation

open Validation in
def Settings.fullReport (s : Settings) : Report :=
  s.validate.append
    { errors := (byName s.auth.roles).filterMap faultyRole ++
        s.schedules.zipIdx.filterMap faultySchedule }

end FleetOps
