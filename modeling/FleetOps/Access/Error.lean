import FleetOps.Access.Grant

set_option autoImplicit false

namespace FleetOps.Access

inductive GrantFault where
  | unknownPair (r : Resource) (a : Action)
  | deploymentWide (r : Resource) (a : Action)
  | other (text : String)
deriving DecidableEq, Repr

def GrantFault.message : GrantFault → String
  | .unknownPair r a => r.name ++ ":" ++ a.name ++ " is not a known action"
  | .deploymentWide r a =>
    r.name ++ ":" ++ a.name ++ " is deployment-wide and cannot be bound to an environment"
  | .other text => text

inductive AccessError where
  | unauthenticated
  | forbidden (resource action : String) (environment : Option EnvironmentId)
  | environmentDenied (environment : EnvironmentId)
  | enterpriseRequired (feature : String)
  | invalidGrant (role : String) (fault : GrantFault)
  | unknownResource (text : String)
  | unknownAction (text : String)
  | collaborator (text : String)
deriving DecidableEq, Repr

structure DenialPayload where
  error : String
  code : String
  feature : Option String := none
deriving DecidableEq, Repr

namespace DenialPayload

def toJson (p : DenialPayload) : Json :=
  .ofMembers [("error", some (.str p.error)), ("code", some (.str p.code)),
    ("feature", p.feature.map .str)]

def ofJson? (v : Json) : Option DenialPayload := do
  let f ← Json.Fields.of? ["error", "code", "feature"] v
  let error ← f.required "error" Json.str?
  let code ← f.required "code" Json.str?
  let feature ← f.optional "feature" Json.str?
  some { error, code, feature }

def enterpriseRequired : DenialPayload :=
  { error := "This feature requires an Enterprise license", code := "enterprise_required" }

end DenialPayload

namespace AccessError

def message : AccessError → String
  | .unauthenticated => "Authentication required"
  | .forbidden resource action none => "Permission denied: " ++ action ++ " on " ++ resource
  | .forbidden resource action (some e) =>
    "Permission denied: " ++ action ++ " on " ++ resource ++ " in environment " ++ toString e
  | .environmentDenied e => "Access to environment " ++ toString e ++ " denied"
  | .enterpriseRequired feature => feature ++ " requires an Enterprise license"
  | .invalidGrant role fault => "Invalid grant in role '" ++ role ++ "': " ++ fault.message
  | .unknownResource text => "Unknown resource: " ++ text
  | .unknownAction text => "Unknown action: " ++ text
  | .collaborator text => "Collaborator error: " ++ text

def code : AccessError → String
  | .unauthenticated => "unauthenticated"
  | .forbidden _ _ _ => "forbidden"
  | .environmentDenied _ => "environment_denied"
  | .enterpriseRequired _ => "enterprise_required"
  | .invalidGrant _ _ => "invalid_grant"
  | .unknownResource _ => "unknown_resource"
  | .unknownAction _ => "unknown_action"
  | .collaborator _ => "collaborator_error"

def isDenial : AccessError → Bool
  | .unauthenticated | .forbidden _ _ _ | .environmentDenied _ | .enterpriseRequired _ => true
  | .invalidGrant _ _ | .unknownResource _ | .unknownAction _ | .collaborator _ => false

def feature? : AccessError → Option String
  | .enterpriseRequired feature => some feature
  | _ => none

def payload (e : AccessError) : DenialPayload :=
  { error := e.message, code := e.code, feature := e.feature? }

end AccessError

def Resource.parse (s : String) : Except AccessError Resource :=
  match parse? s with
  | some r => .ok r
  | none => .error (.unknownResource s)

def Action.parse (s : String) : Except AccessError Action :=
  match parse? s with
  | some a => .ok a
  | none => .error (.unknownAction s)

end FleetOps.Access
