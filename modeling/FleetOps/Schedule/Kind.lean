import FleetOps.Json.Fields
import FleetOps.Text.Blank
import FleetOps.Text.Numeral

set_option autoImplicit false

namespace FleetOps

inductive ScheduleKind where
  | containerUpdate
  | gitStackSync
  | envUpdateCheck
  | systemCleanup
deriving DecidableEq, Repr

namespace ScheduleKind

def all : List ScheduleKind :=
  [.containerUpdate, .gitStackSync, .envUpdateCheck, .systemCleanup]

def name : ScheduleKind → String
  | .containerUpdate => "container_update"
  | .gitStackSync => "git_stack_sync"
  | .envUpdateCheck => "env_update_check"
  | .systemCleanup => "system_cleanup"

def rank : ScheduleKind → Nat
  | .containerUpdate => 0
  | .gitStackSync => 1
  | .envUpdateCheck => 2
  | .systemCleanup => 3

def ofName? (s : String) : Option ScheduleKind :=
  all.find? (·.name = s)

-- Readers may write the names with hyphens.
def underscored (s : String) : String :=
  s.map fun c => if c = '-' then '_' else c

def parse? (s : String) : Option ScheduleKind :=
  ofName? (underscored (Text.trim s))

def canDisable : ScheduleKind → Bool
  | .systemCleanup => false
  | _ => true

def streams : ScheduleKind → Bool
  | .gitStackSync => true
  | _ => false

def toJson (k : ScheduleKind) : Json :=
  .str k.name

def ofJson? (v : Json) : Option ScheduleKind :=
  v.constant?.bind ofName?

end ScheduleKind

abbrev EnvironmentId := Nat

abbrev ExecutionId := Nat

def idOfJson? (v : Json) : Option Nat :=
  v.natBelow? Text.idBound

inductive ScheduleId where
  | numeric (n : Nat)
  | named (name : String)
deriving DecidableEq, Repr

namespace ScheduleId

def text : ScheduleId → String
  | .numeric n => toString n
  | .named name => name

def isNameChar (c : Char) : Bool :=
  c.isLower || c.isDigit || c = '_' || c = '-'

def isName (s : String) : Bool :=
  !s.isEmpty && s.toList.all isNameChar

def ofName? (s : String) : Option ScheduleId :=
  if isName s then some (.named s) else none

def isNumber (s : String) : Bool :=
  !s.isEmpty && s.toList.all Char.isDigit

/-- Digits alone are a number of 64 bits; any other text is a name. Blanks around it are dropped. -/
def parse? (s : String) : Option ScheduleId :=
  let t := Text.trim s
  if isNumber t then (Text.numeral? Text.idBound t).map .numeric else ofName? t

def number? : ScheduleId → Option Nat
  | .numeric n => some n
  | .named _ => none

def toJson : ScheduleId → Json
  | .numeric n => .nat n
  | .named name => .str name

def ofJson? : Json → Option ScheduleId
  | .str s => some (.named s)
  | v => (idOfJson? v).map .numeric

def before : ScheduleId → ScheduleId → Bool
  | .numeric a, .numeric b => a < b
  | .numeric _, .named _ => true
  | .named _, .numeric _ => false
  | .named a, .named b => a < b

end ScheduleId

structure ScheduleKey where
  kind : ScheduleKind
  id : ScheduleId
deriving DecidableEq, Repr

namespace ScheduleKey

def text (k : ScheduleKey) : String :=
  k.kind.name ++ ":" ++ k.id.text

def before (a b : ScheduleKey) : Bool :=
  a.kind.rank < b.kind.rank || (a.kind = b.kind && a.id.before b.id)

def toJson (k : ScheduleKey) : Json :=
  .obj [("kind", k.kind.toJson), ("id", k.id.toJson)]

def ofJson? (v : Json) : Option ScheduleKey := do
  let f ← Json.Fields.of? ["kind", "id"] v
  some { kind := ← f.required "kind" ScheduleKind.ofJson?, id := ← f.required "id" ScheduleId.ofJson? }

end ScheduleKey

end FleetOps
