import FleetOps.Schedule.Error

set_option autoImplicit false

namespace FleetOps

structure JobProcess where
  program : String
  arguments : List String
  bindings : List (String × String)
deriving DecidableEq, Repr

inductive ProcessEnding where
  | exited (status : Nat)
  | signalled (signal : Nat) (dumped : Bool)
deriving DecidableEq, Repr

structure ProcessOutcome where
  output : List UInt8
  errors : List UInt8
  ending : ProcessEnding

/-- What starts a program, and what the program leaves when it has ended. -/
abbrev Starter :=
  JobProcess → Except IoError ProcessOutcome

def unequipped : Starter :=
  fun _ => .error .notFound

def signalNames : List String :=
  ["SIGHUP", "SIGINT", "SIGQUIT", "SIGILL", "SIGTRAP", "SIGABRT", "SIGBUS", "SIGFPE", "SIGKILL", "SIGUSR1",
   "SIGSEGV", "SIGUSR2", "SIGPIPE", "SIGALRM", "SIGTERM", "SIGSTKFLT", "SIGCHLD", "SIGCONT", "SIGSTOP",
   "SIGTSTP", "SIGTTIN", "SIGTTOU", "SIGURG", "SIGXCPU", "SIGXFSZ", "SIGVTALRM", "SIGPROF", "SIGWINCH",
   "SIGIO", "SIGPWR", "SIGSYS"]

def signalName : Nat → Option String
  | 0 => none
  | n + 1 => signalNames[n]?

def ProcessEnding.text : ProcessEnding → String
  | .exited status => "exit status: " ++ toString status
  | .signalled n dumped =>
    let name := match signalName n with
      | some name => " (" ++ name ++ ")"
      | none => ""
    "signal: " ++ toString n ++ name ++ if dumped then " (core dumped)" else ""

end FleetOps
