import FleetOps.Access.Error
import FleetOps.Settings.Schema

set_option autoImplicit false

namespace FleetOps.Access

structure Model where
  roles : List (String × List Grant)
deriving DecidableEq, Repr

namespace Model

def empty : Model :=
  ⟨[]⟩

def setRole (name : String) (grants : List Grant) :
    List (String × List Grant) → List (String × List Grant)
  | [] => [(name, grants)]
  | (n, gs) :: rest =>
    if n = name then (name, grants) :: rest else (n, gs) :: setRole name grants rest

def grants? (m : Model) (role : String) : Option (List Grant) :=
  (m.roles.find? (·.1 = role)).map (·.2)

def grantsFor (m : Model) (role : String) : List Grant :=
  (m.grants? role).getD []

def roleNames (m : Model) : List String :=
  m.roles.map (·.1)

def globalGrants (covered : Resource → Action → Bool) : List Grant :=
  (catalog.filter fun e => covered e.1 e.2.1).map fun e => ⟨e.1, e.2.1, .global⟩

def operatorResources : List Resource :=
  [.containers, .images, .volumes, .stacks, .configsets, .schedules]

def adminCovers (_ : Resource) (_ : Action) : Bool :=
  true

def operatorCovers (r : Resource) (a : Action) : Bool :=
  operatorResources.contains r || (r = .environments && a = .view)

def viewerCovers (_ : Resource) (a : Action) : Bool :=
  a = .view

def presets : List (String × List Grant) :=
  [("admin", globalGrants adminCovers), ("operator", globalGrants operatorCovers),
   ("viewer", globalGrants viewerCovers)]

def withPresets (m : Model) : Model :=
  ⟨presets.foldl (fun roles p => setRole p.1 p.2 roles) m.roles⟩

def checkGrant (role : String) (g : Grant) : Except AccessError Unit :=
  match scopeOf g.resource g.action with
  | none => .error (.invalidGrant role (.unknownPair g.resource g.action))
  | some .global =>
    if g.scope = .global then .ok ()
    else .error (.invalidGrant role (.deploymentWide g.resource g.action))
  | some _ => .ok ()

def role (m : Model) (name : String) (grants : List Grant) : Except AccessError Model := do
  grants.forM (checkGrant name)
  return ⟨setRole name grants.eraseDups m.roles⟩

-- A wildcard bound to an environment leaves out the deployment-wide actions.
def wildcard (r : Resource) (scope : GrantScope) : List Grant :=
  let actions := (actionsOf r).filter fun a =>
    scope = .global || scopeOf r a != some .global
  actions.map fun a => ⟨r, a, scope⟩

def grantsOf (g : GrantSettings) : Except AccessError (List Grant) := do
  let r ← Resource.parse g.resource
  let scope := GrantScope.ofEnvironment g.environment
  if g.action = "*" then return wildcard r scope
  else
    let a ← Action.parse g.action
    return [⟨r, a, scope⟩]

def roleOfSettings (m : Model) (name : String) (r : RoleSettings) : Except AccessError Model := do
  let grants ← r.grants.mapM grantsOf
  m.role name grants.flatten

def ofSettings (auth : AuthSettings) : Except AccessError Model :=
  auth.roles.foldlM (fun m r => m.roleOfSettings r.1 r.2) empty.withPresets

-- The environment that counts for a check, or nothing when the check cannot be met.
def effectiveEnvironment (kind : ScopeKind) (e : Option EnvironmentId) :
    Option (Option EnvironmentId) :=
  match kind, e with
  | .global, _ => some none
  | .environment, none => none
  | _, e => some e

def holdsGrant (grants : List Grant) (r : Resource) (a : Action) (e : Option EnvironmentId) : Bool :=
  grants.contains ⟨r, a, .global⟩ ||
    match e with
    | some id => grants.contains ⟨r, a, .environment id⟩
    | none => false

def isGranted (m : Model) (roles : List String) (r : Resource) (a : Action)
    (e : Option EnvironmentId) : Bool :=
  match (scopeOf r a).bind (effectiveEnvironment · e) with
  | none => false
  | some e => roles.any fun role =>
    match m.grants? role with
    | some grants => holdsGrant grants r a e
    | none => false

end Model

end FleetOps.Access
