import FleetOps.Access.Catalog
import FleetOps.Schedule.Kind

set_option autoImplicit false

namespace FleetOps.Access

inductive GrantScope where
  | global
  | environment (id : EnvironmentId)
deriving DecidableEq, Repr

namespace GrantScope

def ofEnvironment : Option EnvironmentId → GrantScope
  | none => .global
  | some e => .environment e

def toJson : GrantScope → Json
  | .global => .str "global"
  | .environment e => .obj [("environment", .nat e)]

def ofJson? (v : Json) : Option GrantScope :=
  match v.case? with
  | some ("environment", e) => (idOfJson? e).map .environment
  | _ => if v.constant? = some "global" then some .global else none

end GrantScope

structure Grant where
  resource : Resource
  action : Action
  scope : GrantScope
deriving DecidableEq, Repr

namespace Grant

def covers (g : Grant) (r : Resource) (a : Action) (e : Option EnvironmentId) : Bool :=
  g.resource = r && g.action = a &&
    match g.scope with
    | .global => true
    | .environment id => e = some id

def text (g : Grant) : String :=
  g.resource.name ++ ":" ++ g.action.name ++
    match g.scope with
    | .global => ""
    | .environment e => "@" ++ toString e

def toJson (g : Grant) : Json :=
  .obj [("resource", g.resource.toJson), ("action", g.action.toJson), ("scope", g.scope.toJson)]

def ofJson? (v : Json) : Option Grant := do
  let f ← Json.Fields.of? ["resource", "action", "scope"] v
  let resource ← f.required "resource" Resource.ofJson?
  let action ← f.required "action" Action.ofJson?
  let scope ← f.required "scope" GrantScope.ofJson?
  some { resource, action, scope }

end Grant

end FleetOps.Access
