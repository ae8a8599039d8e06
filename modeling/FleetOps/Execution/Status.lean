import FleetOps.Json.Fields
import FleetOps.Text.Blank

set_option autoImplicit false

namespace FleetOps

inductive ExecutionStatus where
  | queued
  | running
  | success
  | failed
  | skipped
deriving DecidableEq, Repr

namespace ExecutionStatus

def all : List ExecutionStatus :=
  [.queued, .running, .success, .failed, .skipped]

def name : ExecutionStatus → String
  | .queued => "queued"
  | .running => "running"
  | .success => "success"
  | .failed => "failed"
  | .skipped => "skipped"

def ofName? (s : String) : Option ExecutionStatus :=
  all.find? (·.name = s)

def parse? (s : String) : Option ExecutionStatus :=
  ofName? (Text.trim s)

def isTerminal : ExecutionStatus → Bool
  | .success | .failed | .skipped => true
  | .queued | .running => false

def canBecome : ExecutionStatus → ExecutionStatus → Bool
  | .queued, .running | .queued, .skipped => true
  | .running, .success | .running, .failed | .running, .skipped => true
  | _, _ => false

def toJson (s : ExecutionStatus) : Json :=
  .str s.name

def ofJson? (v : Json) : Option ExecutionStatus :=
  v.constant?.bind ofName?

end ExecutionStatus

inductive TriggerSource where
  | cron
  | webhook
  | manual
deriving DecidableEq, Repr

namespace TriggerSource

def all : List TriggerSource :=
  [.cron, .webhook, .manual]

def name : TriggerSource → String
  | .cron => "cron"
  | .webhook => "webhook"
  | .manual => "manual"

def ofName? (s : String) : Option TriggerSource :=
  all.find? (·.name = s)

def parse? (s : String) : Option TriggerSource :=
  ofName? (Text.trim s)

def toJson (t : TriggerSource) : Json :=
  .str t.name

def ofJson? (v : Json) : Option TriggerSource :=
  v.constant?.bind ofName?

end TriggerSource

inductive NameError where
  | unknownTrigger (text : String)
  | unknownStatus (text : String)
deriving DecidableEq, Repr

def NameError.message : NameError → String
  | .unknownTrigger text => "unknown trigger source: " ++ Text.trim text
  | .unknownStatus text => "unknown execution status: " ++ Text.trim text

def ExecutionStatus.parse (s : String) : Except NameError ExecutionStatus :=
  match parse? s with
  | some status => .ok status
  | none => .error (.unknownStatus s)

def TriggerSource.parse (s : String) : Except NameError TriggerSource :=
  match parse? s with
  | some trigger => .ok trigger
  | none => .error (.unknownTrigger s)

end FleetOps
