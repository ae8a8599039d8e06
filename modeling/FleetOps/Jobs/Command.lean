import FleetOps.Scheduler.Job
import FleetOps.Settings.Schema
import FleetOps.Text.Utf8

set_option autoImplicit false

namespace FleetOps

def JobContext.bindings (c : JobContext) : List (String × String) :=
  [("HARBORMASTER_SCHEDULE_KIND", c.key.kind.name), ("HARBORMASTER_SCHEDULE_ID", c.key.id.text),
   ("HARBORMASTER_TRIGGER", c.trigger.name), ("HARBORMASTER_EXECUTION_ID", toString c.execution)] ++
    match c.environment with
    | some e => [("HARBORMASTER_ENVIRONMENT_ID", toString e)]
    | none => []

/-- The process of a command. A variable that tells of the run counts over a configured one of its name. -/
def JobCommand.process (command : JobCommand) (c : JobContext) : JobProcess :=
  { program := command.command, arguments := command.args, bindings := command.env ++ c.bindings }

def rawLines (bs : List UInt8) : List (List UInt8) :=
  bs.foldr (fun b ls =>
    if b = 10 then [b] :: ls
    else
      match ls with
      | [] => [[b]]
      | l :: rest => (b :: l) :: rest) []

def withoutEnd (line : String) : String :=
  let cs := line.toList.reverse
  match cs with
  | '\n' :: '\r' :: rest => String.ofList rest.reverse
  | '\n' :: rest => String.ofList rest.reverse
  | _ => line

def textLines : List (List UInt8) → List String × Option Text.Utf8Fault
  | [] => ([], none)
  | l :: rest =>
    match Text.decodeUtf8 l with
    | .error fault => ([], some fault)
    | .ok line =>
      let (lines, fault) := textLines rest
      (withoutEnd line :: lines, fault)

def lastComplaint (errors : List UInt8) : Option String :=
  match Text.decodeUtf8 errors with
  | .error _ => none
  | .ok text => ((text.splitOn "\n").map Text.trim).reverse.find? (!·.isEmpty)

def commandSummary (lines : List String) : Json :=
  .obj [("exit_code", .nat 0), ("lines", .nat lines.length),
    ("last_line", .ofOption .str lines.getLast?)]

def commandEnd (command : String) (lines : List String) (outcome : ProcessOutcome) : JobEnd :=
  if outcome.ending = .exited 0 then .completed (commandSummary lines)
  else
    .failed (.failed ((lastComplaint outcome.errors).getD
      ("'" ++ command ++ "' exited with " ++ outcome.ending.text)))

def commandJob (starter : Starter) (kind : ScheduleKind) (command : Option JobCommand) (c : JobContext) :
    JobBody :=
  match command with
  | none => { work := .ends (.nothingToDo ("no command configured for " ++ kind.name)) }
  | some command =>
    match starter (command.process c) with
    | .error cause => { work := .ends (.failed (.io cause)) }
    | .ok outcome =>
      let starts := some (command.process c)
      let (lines, fault) := textLines (rawLines outcome.output)
      let progress := lines.map fun message => { stage := kind.name, message }
      match fault with
      | some f => { starts, progress, work := .ends (.failed (.io (.badUtf8 f.validUpTo f.badLength))) }
      | none => { starts, progress, work := .ends (commandEnd command.command lines outcome) }

end FleetOps
