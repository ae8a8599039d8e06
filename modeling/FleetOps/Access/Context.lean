import FleetOps.Access.Model

set_option autoImplicit false

namespace FleetOps.Access

structure Actor where
  id : Option String := none
  roles : List String := []
deriving DecidableEq, Repr

namespace Actor

def toJson (a : Actor) : Json :=
  .obj [("id", .ofOption .str a.id), ("roles", .arr (a.roles.map .str))]

def ofJson? (v : Json) : Option Actor := do
  let f ← Json.Fields.of? ["id", "roles"] v
  let id ← f.optionalByName "id" Json.str?
  let roles ← f.withDefault "roles" (Json.list? Json.str?) []
  some { id, roles }

end Actor

structure Context where
  model : Model
  actor : Option Actor
  authEnabled : Bool
  enterprise : Bool
  environments : List EnvironmentId
deriving DecidableEq, Repr

namespace Context

def can (c : Context) (r : Resource) (a : Action) (e : Option EnvironmentId) : Bool :=
  !c.authEnabled ||
    match c.actor with
    | some actor => c.model.isGranted actor.roles r a e
    | none => false

def canNamed (c : Context) (resource action : String) (e : Option EnvironmentId) : Bool :=
  match Resource.parse? resource, Action.parse? action with
  | some r, some a => c.can r a e
  | _, _ => !c.authEnabled

def canAccess (c : Context) (e : EnvironmentId) : Bool :=
  !c.authEnabled || !c.enterprise || (c.actor.isSome && c.environments.contains e)

def canViewAuditLog (c : Context) : Bool :=
  c.can .auditLog .view none

def authorize (c : Context) (r : Resource) (a : Action) (e : Option EnvironmentId) :
    Except AccessError Unit :=
  if c.can r a e then .ok ()
  else if c.authEnabled && c.actor.isNone then .error .unauthenticated
  else .error (.forbidden r.name a.name e)

def authorizeEnvironment (c : Context) (e : EnvironmentId) : Except AccessError Unit :=
  if c.canAccess e then .ok () else .error (.environmentDenied e)

def requireEnterprise (c : Context) (feature : String) : Except AccessError Unit :=
  if c.enterprise then .ok () else .error (.enterpriseRequired feature)

def requireAuthenticated (c : Context) : Except AccessError Unit :=
  if !c.authEnabled || c.actor.isSome then .ok () else .error .unauthenticated

def decision (c : Context) (r : Resource) (a : Action) (e : Option EnvironmentId) :
    Except AccessError Unit := do
  c.authorize r a e
  match e with
  | some id => c.authorizeEnvironment id
  | none => return ()

end Context

structure CheckReport where
  allowed : Bool
  actor : Option String
  authEnabled : Bool
  enterprise : Bool
  denial : Option DenialPayload
deriving DecidableEq, Repr

def CheckReport.toJson (r : CheckReport) : Json :=
  .ofMembers [("allowed", some (.bool r.allowed)), ("actor", some (.ofOption .str r.actor)),
    ("auth_enabled", some (.bool r.authEnabled)), ("enterprise", some (.bool r.enterprise)),
    ("denial", r.denial.map DenialPayload.toJson)]

def errorOf? {α : Type} : Except AccessError α → Option AccessError
  | .ok _ => none
  | .error e => some e

def Context.evaluate (c : Context) (r : Resource) (a : Action) (e : Option EnvironmentId) :
    CheckReport :=
  let denial := errorOf? (c.decision r a e)
  { allowed := denial.isNone
    actor := c.actor.bind (·.id)
    authEnabled := c.authEnabled
    enterprise := c.enterprise
    denial := denial.map AccessError.payload }

structure Collaborators where
  authEnabled : Except AccessError Bool
  enterprise : Except AccessError Bool
  session : String → Except AccessError (Option Actor)
  directory : String → Except AccessError (List EnvironmentId)

def orElse {α : Type} (fallback : α) : Except AccessError α → α
  | .ok a => a
  | .error _ => fallback

def Collaborators.actor (c : Collaborators) (token : Option String) : Option Actor :=
  token.bind fun t => orElse none (c.session t)

-- The directory is asked only where its answer can matter.
def Collaborators.environments (c : Collaborators) (authEnabled enterprise : Bool)
    (actor : Option Actor) : List EnvironmentId :=
  if authEnabled && enterprise then
    match actor.bind (·.id) with
    | some id => orElse [] (c.directory id)
    | none => []
  else []

structure Authorizer where
  model : Model
  collaborators : Collaborators

/-- A flag that cannot be read enforces checks, a license that cannot be read is none. -/
def Authorizer.contextFor (z : Authorizer) (token : Option String) : Context :=
  let authEnabled := orElse true z.collaborators.authEnabled
  let enterprise := orElse false z.collaborators.enterprise
  let actor := z.collaborators.actor token
  { model := z.model, actor, authEnabled, enterprise,
    environments := z.collaborators.environments authEnabled enterprise actor }

-- Of two users that share a token, or a name, the later one counts.
def lastUser? (users : List UserSettings) (chosen : UserSettings → Bool) : Option UserSettings :=
  users.reverse.find? chosen

def Collaborators.ofSettings (auth : AuthSettings) (license : LicenseSettings) : Collaborators :=
  { authEnabled := .ok auth.enabled
    enterprise := .ok license.enterprise
    session := fun token =>
      .ok ((lastUser? auth.users (·.token = some token)).map fun u => ⟨some u.name, u.roles⟩)
    directory := fun name =>
      .ok (((lastUser? auth.users (·.name = name)).map (·.environments)).getD []) }

def Authorizer.ofSettings (auth : AuthSettings) (license : LicenseSettings) :
    Except AccessError Authorizer := do
  let model ← Model.ofSettings auth
  return { model, collaborators := .ofSettings auth license }

end FleetOps.Access
