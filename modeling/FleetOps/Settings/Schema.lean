import FleetOps.Schedule.Kind

set_option autoImplicit false

namespace FleetOps

def boundedBy (bound : Nat) (v : Json) : Option Nat :=
  v.natBelow? bound

def dayBound : Nat := 4294967296

structure GrantSettings where
  resource : String
  action : String
  environment : Option EnvironmentId := none
deriving DecidableEq, Repr

structure RoleSettings where
  grants : List GrantSettings := []
deriving DecidableEq, Repr

structure UserSettings where
  name : String
  token : Option String := none
  roles : List String := []
  environments : List EnvironmentId := []
deriving DecidableEq, Repr

structure AuthSettings where
  enabled : Bool := false
  roles : List (String × RoleSettings) := []
  users : List UserSettings := []
deriving DecidableEq, Repr

structure LicenseSettings where
  enterprise : Bool := false
deriving DecidableEq, Repr

def defaultDataDir : String :=
  "/home/harbor/.local/share/harbormaster"

structure SchedulerSettings where
  dataDir : String := defaultDataDir
  pageLimit : Nat := 50
  retentionDays : Nat := 30
deriving DecidableEq, Repr

structure LoggingSettings where
  level : String := "info"
  file : Bool := true
  dir : Option String := none
deriving DecidableEq, Repr

structure ScheduleSettings where
  kind : String
  id : ScheduleId
  environment : Option EnvironmentId := none
  cron : String
  enabled : Bool := true
  name : Option String := none
deriving DecidableEq, Repr

structure JobCommand where
  command : String
  args : List String := []
  env : List (String × String) := []
deriving DecidableEq, Repr

structure JobSettings where
  containerUpdate : Option JobCommand := none
  gitStackSync : Option JobCommand := none
  envUpdateCheck : Option JobCommand := none
deriving DecidableEq, Repr

structure Settings where
  auth : AuthSettings := {}
  license : LicenseSettings := {}
  scheduler : SchedulerSettings := {}
  logging : LoggingSettings := {}
  schedules : List ScheduleSettings := []
  jobs : JobSettings := {}
deriving DecidableEq, Repr

def GrantSettings.ofJson? (v : Json) : Option GrantSettings := do
  let f ← Json.Fields.of? ["resource", "action", "environment"] v
  let resource ← f.required "resource" Json.str?
  let action ← f.required "action" Json.str?
  let environment ← f.optional "environment" idOfJson?
  some { resource, action, environment }

def GrantSettings.toJson (g : GrantSettings) : Json :=
  .obj [("resource", .str g.resource), ("action", .str g.action),
    ("environment", .ofOption .nat g.environment)]

def RoleSettings.ofJson? (v : Json) : Option RoleSettings := do
  let f ← Json.Fields.of? ["grants"] v
  let grants ← f.withDefault "grants" (Json.list? GrantSettings.ofJson?) []
  some { grants }

def RoleSettings.toJson (r : RoleSettings) : Json :=
  .obj [("grants", .arr (r.grants.map GrantSettings.toJson))]

def UserSettings.ofJson? (v : Json) : Option UserSettings := do
  let f ← Json.Fields.of? ["name", "token", "roles", "environments"] v
  let name ← f.required "name" Json.str?
  let token ← f.optional "token" Json.str?
  let roles ← f.withDefault "roles" (Json.list? Json.str?) []
  let environments ← f.withDefault "environments" (Json.list? idOfJson?) []
  some { name, token, roles, environments }

def UserSettings.toJson (u : UserSettings) : Json :=
  .obj [("name", .str u.name), ("token", .ofOption .str u.token),
    ("roles", .arr (u.roles.map .str)), ("environments", .arr (u.environments.map .nat))]

def AuthSettings.ofJson? (v : Json) : Option AuthSettings := do
  let f ← Json.Fields.of? ["enabled", "roles", "users"] v
  let enabled ← f.withDefault "enabled" Json.bool? false
  let roles ← f.withDefault "roles" (Json.table? RoleSettings.ofJson?) []
  let users ← f.withDefault "users" (Json.list? UserSettings.ofJson?) []
  some { enabled, roles, users }

def AuthSettings.toJson (a : AuthSettings) : Json :=
  .obj [("enabled", .bool a.enabled), ("roles", .obj (a.roles.map fun r => (r.1, r.2.toJson))),
    ("users", .arr (a.users.map UserSettings.toJson))]

def LicenseSettings.ofJson? (v : Json) : Option LicenseSettings := do
  let f ← Json.Fields.of? ["enterprise"] v
  let enterprise ← f.withDefault "enterprise" Json.bool? false
  some { enterprise }

def LicenseSettings.toJson (l : LicenseSettings) : Json :=
  .obj [("enterprise", .bool l.enterprise)]

def SchedulerSettings.ofJson? (v : Json) : Option SchedulerSettings := do
  let f ← Json.Fields.of? ["data_dir", "page_limit", "retention_days"] v
  let dataDir ← f.withDefault "data_dir" Json.str? defaultDataDir
  let pageLimit ← f.withDefault "page_limit" (boundedBy Text.idBound) 50
  let retentionDays ← f.withDefault "retention_days" (boundedBy dayBound) 30
  some { dataDir, pageLimit, retentionDays }

def SchedulerSettings.toJson (s : SchedulerSettings) : Json :=
  .obj [("data_dir", .str s.dataDir), ("page_limit", .nat s.pageLimit),
    ("retention_days", .nat s.retentionDays)]

def LoggingSettings.ofJson? (v : Json) : Option LoggingSettings := do
  let f ← Json.Fields.of? ["level", "file", "dir"] v
  let level ← f.withDefault "level" Json.str? "info"
  let file ← f.withDefault "file" Json.bool? true
  let dir ← f.optional "dir" Json.str?
  some { level, file, dir }

def LoggingSettings.toJson (l : LoggingSettings) : Json :=
  .obj [("level", .str l.level), ("file", .bool l.file), ("dir", .ofOption .str l.dir)]

def ScheduleSettings.ofJson? (v : Json) : Option ScheduleSettings := do
  let f ← Json.Fields.of? ["kind", "id", "environment", "cron", "enabled", "name"] v
  let kind ← f.required "kind" Json.str?
  let id ← f.required "id" ScheduleId.ofJson?
  let environment ← f.optional "environment" idOfJson?
  let cron ← f.required "cron" Json.str?
  let enabled ← f.withDefault "enabled" Json.bool? true
  let name ← f.optional "name" Json.str?
  some { kind, id, environment, cron, enabled, name }

def ScheduleSettings.toJson (s : ScheduleSettings) : Json :=
  .obj [("kind", .str s.kind), ("id", s.id.toJson), ("environment", .ofOption .nat s.environment),
    ("cron", .str s.cron), ("enabled", .bool s.enabled), ("name", .ofOption .str s.name)]

def JobCommand.ofJson? (v : Json) : Option JobCommand := do
  let f ← Json.Fields.of? ["command", "args", "env"] v
  let command ← f.required "command" Json.str?
  let args ← f.withDefault "args" (Json.list? Json.str?) []
  let env ← f.withDefault "env" (Json.table? Json.str?) []
  some { command, args, env }

def JobCommand.toJson (j : JobCommand) : Json :=
  .obj [("command", .str j.command), ("args", .arr (j.args.map .str)),
    ("env", .obj (j.env.map fun e => (e.1, .str e.2)))]

def JobSettings.ofJson? (v : Json) : Option JobSettings := do
  let f ← Json.Fields.of? ["container_update", "git_stack_sync", "env_update_check"] v
  let containerUpdate ← f.optional "container_update" JobCommand.ofJson?
  let gitStackSync ← f.optional "git_stack_sync" JobCommand.ofJson?
  let envUpdateCheck ← f.optional "env_update_check" JobCommand.ofJson?
  some { containerUpdate, gitStackSync, envUpdateCheck }

def JobSettings.toJson (j : JobSettings) : Json :=
  .obj [("container_update", .ofOption JobCommand.toJson j.containerUpdate),
    ("git_stack_sync", .ofOption JobCommand.toJson j.gitStackSync),
    ("env_update_check", .ofOption JobCommand.toJson j.envUpdateCheck)]

def JobSettings.command? (j : JobSettings) : ScheduleKind → Option JobCommand
  | .containerUpdate => j.containerUpdate
  | .gitStackSync => j.gitStackSync
  | .envUpdateCheck => j.envUpdateCheck
  | .systemCleanup => none

def Settings.ofJson? (v : Json) : Option Settings := do
  let f ← Json.Fields.of? ["auth", "license", "scheduler", "logging", "schedules", "jobs"] v
  let auth ← f.withDefault "auth" AuthSettings.ofJson? {}
  let license ← f.withDefault "license" LicenseSettings.ofJson? {}
  let scheduler ← f.withDefault "scheduler" SchedulerSettings.ofJson? {}
  let logging ← f.withDefault "logging" LoggingSettings.ofJson? {}
  let schedules ← f.withDefault "schedules" (Json.list? ScheduleSettings.ofJson?) []
  let jobs ← f.withDefault "jobs" JobSettings.ofJson? {}
  some { auth, license, scheduler, logging, schedules, jobs }

def Settings.toJson (s : Settings) : Json :=
  .obj [("auth", s.auth.toJson), ("license", s.license.toJson),
    ("scheduler", s.scheduler.toJson), ("logging", s.logging.toJson),
    ("schedules", .arr (s.schedules.map ScheduleSettings.toJson)), ("jobs", s.jobs.toJson)]

end FleetOps
