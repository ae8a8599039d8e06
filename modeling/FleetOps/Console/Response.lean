import FleetOps.Access.Context
import FleetOps.Console.Error
import FleetOps.Console.Request
import FleetOps.Settings.Validation

set_option autoImplicit false

namespace FleetOps.Console

def defaultSettingsPath : String :=
  "config/harbormaster.toml"

structure World extends Surroundings where
  bindings : Variables
  settingsPath : String := defaultSettingsPath
  file : String → Option ByteArray

structure Response where
  output : String := ""
  error : Option RequestError := none
  status : Nat := 0
  store : Option Store := none

namespace Response

def failed (e : RequestError) : Response :=
  { error := some e, status := 1 }

def failing (r : Response) (e : RequestError) : Response :=
  { r with error := some e, status := 1 }

def lines (texts : List String) : String :=
  String.join (texts.map (· ++ "\n"))

def ofJson (v : Json) : Response :=
  { output := lines [v.pretty] }

end Response

def responseOf : Except RequestError Response → Response
  | .ok r => r
  | .error e => .failed e

def deployed (s : Settings) (w : World) : Except RequestError Scheduler :=
  (s.deploy w.toSurroundings).mapError .deployment

def checkAccess (s : Settings) (token : Option String) (resource action : String)
    (environment : Option EnvironmentId) : Except RequestError Response := do
  let authorizer ← (Access.Authorizer.ofSettings s.auth s.license).mapError .access
  let r ← (Access.Resource.parse resource).mapError .access
  let a ← (Access.Action.parse action).mapError .access
  let report := (authorizer.contextFor token).evaluate r a environment
  return { Response.ofJson report.toJson with status := if report.allowed then 0 else 2 }

def findingLine (label : String) (f : Finding) : String :=
  label ++ ": " ++ f.path ++ ": " ++ f.message

def validateSettings (s : Settings) (path : String) : Response :=
  let report := s.fullReport
  let findings := report.warnings.map (findingLine "warning") ++ report.errors.map (findingLine "error")
  let warnings := report.warnings.length
  if report.isValid then
    { output := Response.lines
        (findings ++ [path ++ " is valid (" ++ toString warnings ++ " warnings)"]) }
  else
    Response.failing { output := Response.lines findings }
      (.invalid path report.errors.length warnings)

def listExecutions (s : Settings) (w : World) (filters : ExecutionFilters) :
    Except RequestError Response := do
  let query ← filters.query.mapError .filters
  let scheduler ← deployed s w
  let (page, scheduler) := scheduler.history query
  let page ← page.mapError .scheduler
  return { Response.ofJson page.toJson with store := some scheduler.store }

def triggerSchedule (s : Settings) (w : World) (kind id : String) (webhook : Bool) :
    Except RequestError Response := do
  let kind ← (ScheduleKind.parse kind).mapError .scheduler
  if webhook && kind ≠ .gitStackSync then throw .webhookElsewhere
  let scheduler ← deployed s w
  let (answer, scheduler) := scheduler.triggerNamed kind id webhook
  let result := (← answer.mapError (.notNumeric id)).result
  let response := { Response.ofJson result.toJson with store := some scheduler.store }
  return if result.success then response
    else response.failing (.unsuccessful kind id result.error)

def armSchedules (s : Settings) (w : World) : Except RequestError Response := do
  let scheduler ← deployed s w
  let (answer, scheduler) := scheduler.start
  let _ ← answer.mapError .scheduler
  return { store := some scheduler.store }

def loadSettings (w : World) (path : String) (request : Request) : Except RequestError Settings :=
  let loaded := match request with
    | .validate => Settings.load w.bindings path (w.file path)
    | _ => Settings.loadOrDefault w.bindings path (w.file path)
  loaded.mapError (.settings path)

def respondTo (w : World) (path : String) (s : Settings) : Request → Except RequestError Response
  | .run => armSchedules s w
  | .trigger kind id webhook => triggerSchedule s w kind id webhook
  | .executions filters => listExecutions s w filters
  | .check token resource action environment => checkAccess s token resource action environment
  | .validate => .ok (validateSettings s path)

def versionText : String :=
  "harbormaster 0.1.0"

def helpText : String :=
  "Usage: harbormaster [--config PATH] [run | trigger | executions | check | validate | help]"

def respond (w : World) (arguments : List String) : Response :=
  match readCommandLine arguments with
  | .error .misuse => { status := 2 }
  | .error .help => { output := Response.lines [helpText] }
  | .error .version => { output := Response.lines [versionText] }
  | .ok line =>
    let path := line.settings.getD w.settingsPath
    responseOf do
      let s ← loadSettings w path line.request
      respondTo w path s line.request

end FleetOps.Console
