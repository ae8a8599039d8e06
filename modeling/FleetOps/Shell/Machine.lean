import FleetOps.Shell.Tool

set_option autoImplicit false

namespace FleetOps.Shell

inductive Flow where
  | goesOn
  | breaks (loops : Nat)
  | continues (loops : Nat)
  | returns
  | exits (status : Nat)
  | killed (signal : Nat)
deriving DecidableEq, Repr

inductive Sink where
  | output
  | errors
  | nowhere
deriving DecidableEq, Repr

structure Machine where
  bindings : Bindings
  exported : List Octets
  arguments : List Octets := []
  name : Octets := octets "sh"
  processId : Nat := 4242
  status : Nat := 0
  input : Octets := []
  printed : List Octets := []
  reported : List Octets := []
  outputSink : Sink := .output
  errorSink : Sink := .errors
  flow : Flow := .goesOn
  functions : List (Octets × Command) := []
  substituted : Nat := 0
  line : Nat := 1
  exitOnError : Bool := false
  tested : Bool := false
  mustBeSet : Bool := false
  isTraced : Bool := false
  folder : Octets := octets "/"
  traps : List (Nat × Octets) := []

namespace Machine

def done (m : Machine) (status : Nat := 0) : Machine :=
  { m with status }

def writeTo (m : Machine) (s : Sink) (cs : Octets) : Machine :=
  match s with
  | .output => { m with printed := cs :: m.printed }
  | .errors => { m with reported := cs :: m.reported }
  | .nowhere => m

def print (m : Machine) (cs : Octets) : Machine :=
  m.writeTo m.outputSink cs

def report (m : Machine) (cs : Octets) : Machine :=
  m.writeTo m.errorSink cs

def complain (m : Machine) (text : String) : Machine :=
  m.report (m.name ++ octets (": " ++ toString m.line ++ ": " ++ text ++ "\n"))

def abort (m : Machine) (text : String) : Machine :=
  { m.complain text with flow := .exits 2, status := 2 }

def set (m : Machine) (name value : Octets) : Machine :=
  { m with bindings := (name, value) :: m.bindings.filter (·.1 ≠ name) }

def unset (m : Machine) (name : Octets) : Machine :=
  { m with bindings := m.bindings.filter (·.1 ≠ name),
           exported := m.exported.filter (· ≠ name) }

def exportName (m : Machine) (name : Octets) : Machine :=
  if m.exported.contains name then m else { m with exported := name :: m.exported }

def valueOf (m : Machine) (name : Octets) : Option Octets :=
  match name with
  | ['?'] => some (numeralText m.status)
  | ['#'] => some (numeralText m.arguments.length)
  | ['$'] => some (numeralText m.processId)
  | ['!'] | ['-'] => some []
  | ['@'] | ['*'] => if m.arguments.isEmpty then none else some (joined m.arguments)
  | ['0'] => some m.name
  | [c] =>
    if c.isDigit then m.arguments[c.toNat - '1'.toNat]? else m.bindings.lookup name
  | _ => m.bindings.lookup name

def environment (m : Machine) : Bindings :=
  m.exported.filterMap fun name => (m.bindings.lookup name).map (name, ·)

def settle (m : Machine) : Machine :=
  if m.exitOnError && !m.tested && m.status ≠ 0 && m.flow = .goesOn then
    { m with flow := .exits m.status }
  else m

def result (m : Machine) (r : ToolResult) : Machine :=
  let m := if r.output.isEmpty then m else m.print r.output
  let m := if r.errors.isEmpty then m else m.report r.errors
  m.done r.status

end Machine

def signals : List (String × Nat) :=
  [("HUP", 1), ("INT", 2), ("QUIT", 3), ("ILL", 4), ("TRAP", 5), ("ABRT", 6), ("BUS", 7), ("FPE", 8),
   ("KILL", 9), ("USR1", 10), ("SEGV", 11), ("USR2", 12), ("PIPE", 13), ("ALRM", 14), ("TERM", 15)]

def signalOf (cs : Octets) : Option Nat :=
  let s := Tool.shown cs
  if s = "EXIT" then some 0
  else match (signals.find? fun (name, _) => s = name || s = "SIG" ++ name) with
  | some (_, n) => some n
  | none => (numberOf cs).bind fun n => if cs.isEmpty || n < 0 then none else some n.toNat

end FleetOps.Shell
