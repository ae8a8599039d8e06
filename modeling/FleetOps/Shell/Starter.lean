import FleetOps.Jobs.Command
import FleetOps.Shell.Evaluation

set_option autoImplicit false

namespace FleetOps

namespace Shell

-- A later value takes the place of an earlier one.
def setVariable (vs : List (String × String)) (v : String × String) : List (String × String) :=
  vs.filter (·.1 ≠ v.1) ++ [v]

def inherited : List (String × String) :=
  [("HOME", "/home/harbor"), ("PATH", "/usr/local/sbin:/usr/local/bin:/usr/sbin:/usr/bin:/sbin:/bin")]

def hasNul (s : String) : Bool :=
  s.contains '\x00'

def startError (name : String) : IoError :=
  if (Tool.folders ++ Tool.plainFiles).contains name then .permissionDenied
  else if Tool.plainFiles.any fun file => name.startsWith (file ++ "/") then .notADirectory
  else .notFound

-- A program whose name holds no slash is looked for on the path.
def isReachable (name : String) (bindings : List (String × String)) : Bool :=
  name.contains '/' || onPath ((bindings.lookup "PATH").map octets)

def start : Starter := fun p =>
  let bindings := p.bindings.foldl setVariable inherited
  if hasNul p.program || p.arguments.any hasNul || bindings.any fun v => hasNul v.1 || hasNul v.2 then
    .error (.other "nul byte found in provided data")
  else if !isReachable p.program bindings then .error .notFound
  else
    match runProgram p.program p.arguments bindings with
    | some outcome => .ok outcome
    | none => .error (startError p.program)

end Shell

def commandBody (kind : ScheduleKind) (command : Option JobCommand) (c : JobContext) : JobBody :=
  commandJob Shell.start kind command c

end FleetOps
