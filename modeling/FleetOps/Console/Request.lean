import FleetOps.Console.Argument
import FleetOps.Execution.Filters

set_option autoImplicit false

namespace FleetOps.Console

inductive Request where
  | run
  | trigger (kind id : String) (webhook : Bool)
  | executions (filters : ExecutionFilters)
  | check (token : Option String) (resource action : String) (environment : Option EnvironmentId)
  | validate
deriving DecidableEq, Repr

structure CommandLine where
  settings : Option String
  request : Request
deriving DecidableEq, Repr

inductive CommandName where
  | run
  | trigger
  | executions
  | check
  | validate
deriving DecidableEq, Repr

namespace CommandName

def all : List CommandName :=
  [.run, .trigger, .executions, .check, .validate]

def name : CommandName → String
  | .run => "run"
  | .trigger => "trigger"
  | .executions => "executions"
  | .check => "check"
  | .validate => "validate"

def ofName? (s : String) : Option CommandName :=
  all.find? (·.name = s)

def isNumeral (text : String) : Bool :=
  (Text.numeral? Text.idBound text).isSome

def isInstant (text : String) : Bool :=
  (Instant.read? text).isSome

def settingsForm : OptionForm :=
  { name := "config", letter := some 'c', accepts := fun path => !path.isEmpty }

def helpForm : OptionForm :=
  { name := "help", letter := some 'h', takesValue := false }

def versionForm : OptionForm :=
  { name := "version", letter := some 'V', takesValue := false }

def ownForms : CommandName → List OptionForm
  | .run | .validate => []
  | .trigger => [{ name := "webhook", takesValue := false }]
  | .executions =>
    [{ name := "kind" }, { name := "id" }, { name := "env", accepts := isNumeral },
     { name := "no-env", takesValue := false }, { name := "status", repeats := true },
     { name := "trigger" }, { name := "from", accepts := isInstant },
     { name := "to", accepts := isInstant }, { name := "limit", accepts := isNumeral },
     { name := "offset", accepts := isNumeral }]
  | .check =>
    [{ name := "token" }, { name := "resource" }, { name := "action" },
     { name := "env", accepts := isNumeral }]

def forms (c : CommandName) : List OptionForm :=
  settingsForm :: helpForm :: c.ownForms

def places : CommandName → Nat
  | .trigger => 2
  | _ => 0

def filtersOf (g : Gathered) : ExecutionFilters :=
  let number (name : String) := (g.value? name).bind (Text.numeral? Text.idBound)
  let instant (name : String) := (g.value? name).bind Instant.read?
  { kind := g.value? "kind", id := g.value? "id", environment := number "env"
    unscoped := g.has "no-env", statuses := g.all "status", trigger := g.value? "trigger"
    start := instant "from", stop := instant "to", limit := number "limit"
    offset := (number "offset").getD 0 }

def request? (c : CommandName) (g : Gathered) : Option Request :=
  match c with
  | .run => some .run
  | .validate => some .validate
  | .trigger =>
    match g.words with
    | [kind, id] => some (.trigger kind id (g.has "webhook"))
    | _ => none
  | .executions =>
    if g.has "no-env" && (g.value? "env").isSome then none else some (.executions (filtersOf g))
  | .check => do
    let resource ← g.value? "resource"
    let action ← g.value? "action"
    some (.check (g.value? "token") resource action
      ((g.value? "env").bind (Text.numeral? Text.idBound)))

end CommandName

open CommandName

def leadingForms : List OptionForm :=
  [settingsForm, helpForm, versionForm]

def isCommand (text : String) : Bool :=
  text = "help" || (ofName? text).isSome

def readHelp : List String → Refusal
  | [] => .help
  | [text] => if isCommand text then .help else .misuse
  | _ => .misuse

def readCommand (c : CommandName) (leading : Gathered) (rest : List String) :
    Except Refusal CommandLine := do
  let (arguments, stop) := readArguments c.forms (fun _ => false) none rest
  let g ← gather c.places arguments
  match stop, c.request? g with
  | .complete, some request =>
    return { settings := (g.value? "config").or (leading.value? "config"), request }
  | _, _ => throw .misuse

/--
Reads a command line. Where no command is named, the schedules are run. The path of the settings that
stands after the command counts before one that leads it.
-/
def readCommandLine (texts : List String) : Except Refusal CommandLine := do
  let (arguments, stop) := readArguments leadingForms isCommand none texts
  let g ← gather 0 arguments
  match stop with
  | .refused => throw .misuse
  | .complete => return { settings := g.value? "config", request := .run }
  | .command text rest =>
    match ofName? text with
    | some c => readCommand c g rest
    | none => throw (readHelp rest)

end FleetOps.Console
