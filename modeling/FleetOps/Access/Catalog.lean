import FleetOps.Json.Fields

set_option autoImplicit false

namespace FleetOps.Access

inductive Resource where
  | containers
  | images
  | volumes
  | stacks
  | configsets
  | notifications
  | git
  | license
  | settings
  | auditLog
  | environments
  | schedules
deriving DecidableEq, Repr

namespace Resource

def all : List Resource :=
  [.containers, .images, .volumes, .stacks, .configsets, .notifications, .git, .license,
   .settings, .auditLog, .environments, .schedules]

def name : Resource → String
  | .containers => "containers"
  | .images => "images"
  | .volumes => "volumes"
  | .stacks => "stacks"
  | .configsets => "configsets"
  | .notifications => "notifications"
  | .git => "git"
  | .license => "license"
  | .settings => "settings"
  | .auditLog => "audit"
  | .environments => "environments"
  | .schedules => "schedules"

def ofName? (s : String) : Option Resource :=
  all.find? (·.name = s)

def parse? (s : String) : Option Resource :=
  if s = "audit_log" ∨ s = "audit-log" then some .auditLog else ofName? s

def toJson (r : Resource) : Json :=
  .str r.name

def ofJson? (v : Json) : Option Resource :=
  v.constant?.bind ofName?

end Resource

inductive Action where
  | view
  | create
  | edit
  | remove
  | start
  | stop
  | restart
  | exec
  | logs
  | inspect
  | pull
  | push
  | build
  | deploy
  | sync
  | test
  | exportData
  | manage
  | run
deriving DecidableEq, Repr

namespace Action

def all : List Action :=
  [.view, .create, .edit, .remove, .start, .stop, .restart, .exec, .logs, .inspect, .pull, .push,
   .build, .deploy, .sync, .test, .exportData, .manage, .run]

def name : Action → String
  | .view => "view"
  | .create => "create"
  | .edit => "edit"
  | .remove => "remove"
  | .start => "start"
  | .stop => "stop"
  | .restart => "restart"
  | .exec => "exec"
  | .logs => "logs"
  | .inspect => "inspect"
  | .pull => "pull"
  | .push => "push"
  | .build => "build"
  | .deploy => "deploy"
  | .sync => "sync"
  | .test => "test"
  | .exportData => "export"
  | .manage => "manage"
  | .run => "run"

def parse? (s : String) : Option Action :=
  all.find? (·.name = s)

def toJson (a : Action) : Json :=
  .str a.name

def ofJson? (v : Json) : Option Action :=
  v.constant?.bind parse?

end Action

/--
How an action relates to environments: it is deployment-wide, it needs an environment, or a check
without one is a check of the whole deployment.
-/
inductive ScopeKind where
  | global
  | environment
  | environmentOptional
deriving DecidableEq, Repr

def ScopeKind.name : ScopeKind → String
  | .global => "global"
  | .environment => "environment"
  | .environmentOptional => "environment_optional"

def ScopeKind.toJson (k : ScopeKind) : Json :=
  .str k.name

def onResource (r : Resource) (k : ScopeKind) (actions : List Action) :
    List (Resource × Action × ScopeKind) :=
  actions.map (r, ·, k)

def catalog : List (Resource × Action × ScopeKind) :=
  onResource .containers .environment
    [.view, .create, .start, .stop, .restart, .remove, .exec, .logs, .inspect] ++
  onResource .images .environment [.view, .pull, .push, .build, .remove, .inspect] ++
  onResource .volumes .environment [.view, .create, .remove, .inspect, .exportData] ++
  onResource .stacks .environment [.view, .create, .edit, .start, .stop, .remove, .deploy] ++
  onResource .configsets .global [.view, .create, .edit, .remove] ++
  onResource .notifications .environmentOptional [.view, .create, .edit, .remove, .test] ++
  onResource .git .global [.view, .create, .edit, .remove, .sync] ++
  onResource .license .global [.view, .manage] ++
  onResource .settings .global [.view, .edit] ++
  onResource .auditLog .global [.view, .exportData] ++
  onResource .environments .environmentOptional [.view] ++
  onResource .environments .global [.create] ++
  onResource .environments .environmentOptional [.edit, .remove] ++
  onResource .schedules .environmentOptional [.view, .edit, .run]

def scopeOf (r : Resource) (a : Action) : Option ScopeKind :=
  (catalog.find? fun e => e.1 = r && e.2.1 = a).map (·.2.2)

def actionsOf (r : Resource) : List Action :=
  (catalog.filter (·.1 = r)).map (·.2.1)

end FleetOps.Access
