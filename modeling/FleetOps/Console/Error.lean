import FleetOps.Access.Error
import FleetOps.Deployment
import FleetOps.Execution.Filters

set_option autoImplicit false

namespace FleetOps

def LoadError.failure (e : LoadError) : Failure :=
  match e with
  | .io cause => { message := e.message, causes := [cause.message] }
  | .toml => { message := e.message, isCut := true }
  | _ => { message := e.message }

def FilterError.failure : FilterError → Failure
  | .schedule e => e.failure
  | e => { message := e.message }

def idFailure (id : String) (e : Text.NumeralError) : Failure :=
  Failure.under ("schedule id '" ++ id ++ "' is not numeric") { message := e.message }

namespace Console

inductive RequestError where
  | settings (path : String) (e : LoadError)
  | deployment (e : DeploymentError)
  | scheduler (e : SchedulerError)
  | filters (e : FilterError)
  | access (e : Access.AccessError)
  | notNumeric (id : String) (e : Text.NumeralError)
  | webhookElsewhere
  | unsuccessful (kind : ScheduleKind) (id : String) (reason : Option String)
  | invalid (path : String) (errors warnings : Nat)
deriving DecidableEq, Repr

def RequestError.failure : RequestError → Failure
  | .settings path e => e.failure.under ("failed to load " ++ path)
  | .deployment e => e.failure
  | .scheduler e => e.failure
  | .filters e => e.failure
  | .access e => { message := e.message }
  | .notNumeric id e => idFailure id e
  | .webhookElsewhere => { message := "--webhook only applies to git_stack_sync" }
  | .unsuccessful kind id reason =>
    { message := kind.name ++ " " ++ id ++ " did not succeed: " ++ reason.getD "unknown error" }
  | .invalid path errors warnings =>
    { message := path ++ " is invalid (" ++ toString errors ++ " errors, " ++ toString warnings ++
        " warnings)" }

end Console

end FleetOps
