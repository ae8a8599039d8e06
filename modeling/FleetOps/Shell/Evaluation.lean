import FleetOps.Jobs.Process
import FleetOps.Shell.Machine

set_option autoImplicit false

namespace FleetOps.Shell

inductive Segment where
  | fixed (cs : Octets) (quoted : Bool)
  | loose (cs : Octets)
  | separate (fields : List Octets)

def Segment.text : Segment → Octets
  | .fixed cs _ | .loose cs => cs
  | .separate fields => joined fields

def Segment.marked : Segment → List (Char × Bool)
  | .fixed cs quoted => cs.map (·, quoted)
  | .loose cs => cs.map (·, false)
  | .separate fields => (joined fields).map (·, true)

structure Fields where
  finished : List Octets := []
  growing : Option Octets := none

namespace Fields

def grow (f : Fields) (cs : Octets) : Fields :=
  { f with growing := some (f.growing.getD [] ++ cs) }

def finish (f : Fields) : Fields :=
  match f.growing with
  | some cs => { finished := cs :: f.finished }
  | none => f

def isSeparator (c : Char) : Bool :=
  isSpace c || c = '\n'

def addLoose (f : Fields) : Octets → Fields
  | [] => f
  | c :: cs => if isSeparator c then f.finish.addLoose cs else (f.grow [c]).addLoose cs

def addSeparate (f : Fields) : List Octets → Fields
  | [] => f
  | [cs] => f.grow cs
  | cs :: rest => (f.grow cs).finish.addSeparate rest

def add (f : Fields) : Segment → Fields
  | .fixed cs quoted => if cs.isEmpty && !quoted then f else f.grow cs
  | .loose cs => f.addLoose cs
  | .separate fields => f.addSeparate fields

-- No argument at all, in quotes or not, is no field.
def isVoid (ss : List Segment) : Bool :=
  ss.any (fun s => match s with | .separate [] => true | _ => false) && ss.all (·.text.isEmpty)

def ofSegments (ss : List Segment) : List Octets :=
  if isVoid ss then [] else (ss.foldl add {}).finish.finished.reverse

end Fields

def exitStatus (m : Machine) (command : String) (arguments : List Octets) : Except String Nat :=
  match arguments with
  | [] => .ok m.status
  | a :: _ =>
    if !a.isEmpty && a.all Char.isDigit then .ok (Text.digitsValue a % 256)
    else .error (command ++ ": Illegal number: " ++ Tool.shown a)

def loopCount (arguments : List Octets) : Nat :=
  match arguments with
  | a :: _ => ((numberOf a).getD 1).toNat
  | [] => 1

def assignmentOf (a : Octets) : Octets × Option Octets :=
  let name := a.takeWhile (· ≠ '=')
  match a.drop name.length with
  | _ :: value => (name, some value)
  | [] => (name, none)

def exportEach (m : Machine) (arguments : List Octets) : Machine :=
  (arguments.foldl (fun m a =>
    let (name, value) := assignmentOf a
    let m := m.exportName name
    match value with
    | some value => m.set name value
    | none => m) m).done

def assignEach (m : Machine) (arguments : List Octets) : Machine :=
  (arguments.foldl (fun m a =>
    match assignmentOf a with
    | (name, some value) => m.set name value
    | (_, none) => m) m).done

def setOption (m : Machine) (value : Bool) (option : Char) : Machine :=
  match option with
  | 'e' => { m with exitOnError := value }
  | 'u' => { m with mustBeSet := value }
  | 'x' => { m with isTraced := value }
  | _ => m

def optionNames : List (String × Char) :=
  [("errexit", 'e'), ("noglob", 'f'), ("ignoreeof", 'I'), ("interactive", 'i'), ("monitor", 'm'),
   ("noexec", 'n'), ("stdin", 's'), ("xtrace", 'x'), ("verbose", 'v'), ("vi", 'V'), ("emacs", 'E'),
   ("noclobber", 'C'), ("allexport", 'a'), ("notify", 'b'), ("nounset", 'u')]

def setOptions (m : Machine) : List Octets → Machine
  | [] => m.done
  | ['-', '-'] :: rest => { m with arguments := rest, status := 0 }
  | [sign, 'o'] :: name :: rest =>
    match optionNames.lookup (Tool.shown name) with
    | some option => setOptions (setOption m (sign = '-') option) rest
    | none => m.abort ("set: Illegal option " ++ String.ofList [sign, 'o', ' '] ++ Tool.shown name)
  | a :: rest =>
    match a with
    | '-' :: options => setOptions (options.foldl (setOption · true) m) rest
    | '+' :: options => setOptions (options.foldl (setOption · false) m) rest
    | _ => { m with arguments := a :: rest, status := 0 }

-- The first line of the input goes to the variables, the rest of it to the last one.
def readInput (m : Machine) (names : List Octets) : Machine :=
  let names := names.filter (· ≠ ['-', 'r'])
  let line := m.input.takeWhile (· ≠ '\n')
  let ended := line.length < m.input.length
  let m := { m with input := m.input.drop (line.length + 1) }
  let trimmed := line.dropWhile isSpace
  let assign := (names.foldl (fun (m, cs, left) name =>
    if left = 1 then (m.set name (cs.reverse.dropWhile isSpace).reverse, [], 0)
    else
      let word := cs.takeWhile fun c => !isSpace c
      (m.set name word, (cs.drop word.length).dropWhile isSpace, left - 1))
    (m, trimmed, names.length))
  assign.1.done (if ended then 0 else 1)

def sendSignal (m : Machine) (signal : Option Nat) (targets : List Octets) : Machine :=
  match signal, targets with
  | none, _ => (m.complain "kill: Illegal number").done 1
  | some _, [] => (m.complain "Usage: kill [-s sigspec | -signum | -sigspec] [pid | job]...").done 2
  | some n, _ =>
    if targets.contains (numeralText m.processId) || targets.contains ['0'] then
      if n = 0 then m.done else { m with flow := .killed n }
    else (m.complain "kill: No such process").done 1

def kill (m : Machine) (arguments : List Octets) : Machine :=
  match arguments with
  | ['-', 's'] :: s :: targets => sendSignal m (signalOf s) targets
  | ['-', '-'] :: targets => sendSignal m (some 15) targets
  | ('-' :: s) :: targets => sendSignal m (signalOf s) targets
  | targets => sendSignal m (some 15) targets

def parentOf (folder : Octets) : Octets :=
  match ((folder.reverse.dropWhile (· ≠ '/')).drop 1).reverse with
  | [] => ['/']
  | parent => parent

def changeFolder (m : Machine) (arguments : List Octets) : Machine :=
  match arguments with
  | [] => m.done
  | folder :: _ =>
    if Tool.folders.contains (Tool.shown folder) then
      { m with folder := if folder = ['.', '.'] then parentOf m.folder
                         else if folder.head? = some '/' then folder else m.folder }.done
    else (m.complain ("cd: can't cd to " ++ Tool.shown folder)).done 2

def setTraps (m : Machine) (arguments : List Octets) : Machine :=
  match arguments with
  | action :: names =>
    let numbers := names.filterMap signalOf
    let kept := m.traps.filter fun t => !numbers.contains t.1
    { m with traps := if action = ['-'] then kept else numbers.map (·, action) ++ kept }.done
  | [] => m.done

def printFormatted (m : Machine) (arguments : List Octets) : Machine :=
  match arguments with
  | [] => (m.complain "printf: usage: printf format [arg ...]").done 2
  | format :: rest =>
    let (text, faults) := printfText format rest
    let m := if text.isEmpty then m else m.print text
    let m := faults.foldl (fun m a => m.complain ("printf: " ++ Tool.shown a ++ ": expected numeric value")) m
    m.done (if faults.isEmpty then 0 else 1)

def evaluateTest (m : Machine) (command : String) (words : List Octets) : Machine :=
  match Tool.test (words.length + 4) words with
  | .ok true => m.done
  | .ok false => m.done 1
  | .error e => (m.complain (command ++ ": " ++ e.message)).done 2

def showEnvironment (m : Machine) (names : List Octets) : Machine :=
  match names with
  | [] => (m.print (Tool.unlines (m.environment.map fun (k, v) => k ++ '=' :: v))).done
  | _ =>
    let values := names.filterMap fun name => m.environment.lookup name
    (m.print (Tool.unlines values)).done (if values.length = names.length then 0 else 1)

def plainCommand (m : Machine) (name : String) (arguments : List Octets) : Option Machine :=
  match name with
  | ":" | "true" | "wait" | "umask" | "hash" | "times" => some m.done
  | "false" => some (m.done 1)
  | "exit" =>
    match exitStatus m "exit" arguments with
    | .ok status => some { m with flow := .exits status, status }
    | .error text => some (m.abort text)
  | "return" =>
    match exitStatus m "return" arguments with
    | .ok status => some { m with flow := .returns, status }
    | .error text => some (m.abort text)
  | "break" => some { m with flow := .breaks (loopCount arguments), status := 0 }
  | "continue" => some { m with flow := .continues (loopCount arguments), status := 0 }
  | "echo" => some (m.print (echoText arguments)).done
  | "printf" => some (printFormatted m arguments)
  | "test" => some (evaluateTest m "test" arguments)
  | "[" =>
    if arguments.getLast? = some [']'] then some (evaluateTest m "[" arguments.dropLast)
    else some ((m.complain "[: missing ]").done 2)
  | "export" => some (exportEach m arguments)
  | "local" | "readonly" => some (assignEach m arguments)
  | "unset" => some ((arguments.foldl Machine.unset m).done)
  | "shift" =>
    if m.arguments.length < loopCount arguments then some (m.abort "shift: can't shift that many")
    else some { m with arguments := m.arguments.drop (loopCount arguments), status := 0 }
  | "set" => some (setOptions m arguments)
  | "read" => some (readInput m arguments)
  | "kill" => some (kill m arguments)
  | "pwd" => some (m.print (m.folder ++ ['\n'])).done
  | "cd" => some (changeFolder m arguments)
  | "trap" => some (setTraps m arguments)
  | "printenv" => some (showEnvironment m arguments)
  | _ => none

def programName (name : String) : String :=
  match name.splitOn "/" with
  | ["", "bin", base] | ["", "usr", "bin", base] => base
  | _ => name

def onPath (path : Option Octets) : Bool :=
  let folders := (path.getD []).splitOn ':'
  folders.contains (octets "/bin") || folders.contains (octets "/usr/bin")

def isProgram (name : String) : Bool :=
  let base := programName name
  ["true", "false", "env", "printenv", "pwd", "kill", "test", "echo", "printf", "sh", "dash"].contains base ||
    (Tool.find? base).isSome

def missing (m : Machine) (name : String) (caller : String := "") : Machine :=
  if (Tool.folders ++ Tool.plainFiles).contains name && name.contains '/' then
    (m.complain (caller ++ name ++ ": Permission denied")).done 126
  else (m.complain (caller ++ name ++ ": not found")).done 127

def sinkOf (m : Machine) (channel : Nat) : Sink :=
  match channel with
  | 1 => m.outputSink
  | 2 => m.errorSink
  | _ => .nowhere

def redirectTo (m : Machine) (channel : Nat) (s : Sink) : Machine :=
  match channel with
  | 1 => { m with outputSink := s }
  | 2 => { m with errorSink := s }
  | _ => m

-- The shell goes on as it was, but for what was printed and read meanwhile.
def Machine.backTo (m before : Machine) : Machine :=
  { before with printed := m.printed, reported := m.reported, input := m.input, status := m.status
                flow := match m.flow with
                  | .killed n => .killed n
                  | _ => before.flow }

-- A loop is left: one that encloses it may have to be left too.
def Machine.leaveLoop (m : Machine) : Machine :=
  match m.flow with
  | .breaks n => { m with flow := if n ≤ 1 then .goesOn else .breaks (n - 1) }
  | .continues n => { m with flow := if n ≤ 1 then .goesOn else .continues (n - 1) }
  | _ => m

def killNotice (signal : Nat) : Octets :=
  match signal with
  | 9 => octets "Killed\n"
  | 15 => octets "Terminated\n"
  | 1 => octets "Hangup\n"
  | _ => []

def Machine.quitTo (m before : Machine) : Machine :=
  match m.flow with
  | .killed n => { (m.backTo before).report (killNotice n) with flow := before.flow, status := 128 + n }
  | _ => m.backTo before

-- A tilde before a word, or before a slash, stands for the home folder.
def withHome (m : Machine) (w : Word) : Word :=
  let home : Piece := .text ((m.bindings.lookup (octets "HOME")).getD ['~']) true
  match w with
  | [.text ['~'] false] => [home]
  | .text ['~'] false :: .text ['/'] false :: rest => home :: .text ['/'] false :: rest
  | w => w

def Machine.trace (m : Machine) (assigned : List Octets) (fields : List Octets) : Machine :=
  let values := assigned.map fun name => name ++ '=' :: (m.bindings.lookup name).getD []
  if m.isTraced then m.writeTo .errors (octets "+ " ++ joined (values ++ fields) ++ ['\n']) else m

mutual
def expandPieces : Nat → Machine → Word → List Segment × Machine
  | 0, m, _ => ([], m)
  | _ + 1, m, [] => ([], m)
  | n + 1, m, p :: ps =>
    let (s, m) := expandPiece n m p
    let (ss, m) := expandPieces n m ps
    (s :: ss, m)

def expandPiece : Nat → Machine → Piece → Segment × Machine
  | 0, m, _ => (.fixed [] false, m)
  | n + 1, m, p =>
    let segment (cs : Octets) (quoted : Bool) : Segment := if quoted then .fixed cs true else .loose cs
    match p with
    | .text cs quoted => (.fixed cs quoted, m)
    | .value name quoted =>
      if name = ['@'] && quoted then (.separate m.arguments, m)
      else
        match m.valueOf name with
        | some cs => (segment cs quoted, m)
        | none =>
          if m.mustBeSet then (.loose [], m.abort (Tool.shown name ++ ": parameter not set"))
          else (segment [] quoted, m)
    | .size name => (.fixed (numeralText ((m.valueOf name).getD []).length) false, m)
    | .arithmetic e quoted =>
      let (text, m) := expandText n m e
      match evaluate m.bindings text with
      | .ok (value, bindings) => (segment (numeralText value) quoted, { m with bindings })
      | .error e =>
        (.loose [], m.abort ("arithmetic expression: " ++ e.message ++ ": \"" ++ Tool.shown text ++ "\""))
    | .output c quoted =>
      let (text, m) := capture n m c
      (segment text quoted, m)
    | .adapted name how word quoted =>
      let value := m.valueOf name
      let isSet (alsoEmpty : Bool) : Bool := match value with
        | none => false
        | some cs => !(alsoEmpty && cs.isEmpty)
      match how with
      | .orElse alsoEmpty =>
        if isSet alsoEmpty then (segment (value.getD []) quoted, m)
        else
          let (text, m) := expandText n m word
          (segment text quoted, m)
      | .orAssign alsoEmpty =>
        if isSet alsoEmpty then (segment (value.getD []) quoted, m)
        else
          let (text, m) := expandText n m word
          (segment text quoted, m.set name text)
      | .ifSet alsoEmpty =>
        if isSet alsoEmpty then
          let (text, m) := expandText n m word
          (segment text quoted, m)
        else (segment [] quoted, m)
      | .orFail alsoEmpty =>
        if isSet alsoEmpty then (segment (value.getD []) quoted, m)
        else
          let (text, m) := expandText n m word
          let reason := if !text.isEmpty then Tool.shown text
            else if alsoEmpty then "parameter not set or null" else "parameter not set"
          (.loose [], m.abort (Tool.shown name ++ ": " ++ reason))
      | .dropStart longest =>
        let (marked, m) := expandMarked n m word
        (segment (dropStart (patternOf marked) longest (value.getD [])) quoted, m)
      | .dropEnd longest =>
        let (marked, m) := expandMarked n m word
        (segment (dropEnd (patternOf marked) longest (value.getD [])) quoted, m)

def expandText : Nat → Machine → Word → Octets × Machine
  | 0, m, _ => ([], m)
  | n + 1, m, w =>
    let (ss, m) := expandPieces n m w
    (ss.flatMap Segment.text, m)

def expandMarked : Nat → Machine → Word → List (Char × Bool) × Machine
  | 0, m, _ => ([], m)
  | n + 1, m, w =>
    let (ss, m) := expandPieces n m w
    (ss.flatMap Segment.marked, m)

def expandWords : Nat → Machine → List Word → List Octets × Machine
  | 0, m, _ => ([], m)
  | _ + 1, m, [] => ([], m)
  | n + 1, m, w :: ws =>
    let (ss, m) := expandPieces n m (withHome m w)
    let (rest, m) := expandWords n m ws
    (Fields.ofSegments ss ++ rest, m)

def capture : Nat → Machine → Command → Octets × Machine
  | 0, m, _ => ([], m)
  | n + 1, m, c =>
    let inner := execute n { m with printed := [], outputSink := .output } c
    let text := inner.printed.reverse.flatten
    let m := { inner.backTo m with printed := m.printed, substituted := inner.status, status := m.status }
    ((text.reverse.dropWhile (· = '\n')).reverse, m)

def assign : Nat → Machine → List (Octets × Word) → Machine
  | 0, m, _ => m
  | _ + 1, m, [] => m
  | n + 1, m, (name, w) :: rest =>
    let (value, m) := expandText n m (withHome m w)
    assign n (m.set name value) rest

def redirect : Nat → Machine → List Redirection → Machine
  | 0, m, _ => m
  | _ + 1, m, [] => m
  | n + 1, m, r :: rest =>
    let m := match r with
      | .copy channel target => redirectTo m channel (sinkOf m target)
      | .close channel => redirectTo m channel .nowhere
      | .write channel w =>
        let (file, m) := expandText n m w
        let s : Sink := if file = octets "/dev/stdout" then m.outputSink
          else if file = octets "/dev/stderr" then m.errorSink
          else .nowhere
        redirectTo m channel s
      | .document text =>
        let (input, m) := expandText n m text
        { m with input }
      | .read w =>
        let (file, m) := expandText n m w
        match Tool.contentOf m.input file with
        | some input => { m with input }
        | none => { m.complain ("cannot open " ++ Tool.shown file ++ ": No such file") with status := 2 }
    redirect n m rest

def execute : Nat → Machine → Command → Machine
  | 0, m, _ => m
  | n + 1, m, c =>
    if m.flow ≠ .goesOn then m
    else
      match c with
      | .nothing => m
      | .simple line assignments words redirections =>
        (executeSimple n { m with line, substituted := 0 } assignments words redirections).settle
      | .redirected c redirections =>
        let inner := execute n (redirect n m redirections) c
        { inner with outputSink := m.outputSink, errorSink := m.errorSink }
      | .sequence a b => execute n (execute n m a) b
      | .both a b =>
        let inner := { execute n { m with tested := true } a with tested := m.tested }
        if inner.status = 0 then execute n inner b else inner
      | .either a b =>
        let inner := { execute n { m with tested := true } a with tested := m.tested }
        if inner.status = 0 then inner else execute n inner b
      | .negated c =>
        let inner := { execute n { m with tested := true } c with tested := m.tested }
        inner.done (if inner.status = 0 then 1 else 0)
      | .pipe a b =>
        let left := execute n { m with printed := [], outputSink := .output, tested := true } a
        let input := left.printed.reverse.flatten
        let between := { left.backTo m with printed := m.printed }
        let right := execute n { between with input } b
        ({ right.backTo between with input := m.input }).settle
      | .apart c => ((execute n m c).backTo m).settle
      | .choice test yes no =>
        let inner := { execute n { m with tested := true } test with tested := m.tested }
        if inner.status = 0 then execute n inner yes
        else
          match no with
          | .nothing => inner.done
          | no => execute n inner no
      | .loop wanted test body => repeatLoop n m.done wanted test body
      | .each name words body =>
        let (values, m) := match words with
          | some ws => expandWords n m ws
          | none => (m.arguments, m)
        repeatEach n m.done name values body
      | .select word branches =>
        let (text, m) := expandText n m word
        selectBranch n m.done text branches
      | .define name body => { m with functions := (name, body) :: m.functions, status := 0 }

def executeSimple : Nat → Machine → List (Octets × Word) → List Word → List Redirection → Machine
  | 0, m, _, _, _ => m
  | n + 1, m, assignments, words, redirections =>
    let (fields, m) := expandWords n m words
    if m.flow ≠ .goesOn then m
    else
      match fields with
      | [] =>
        let inner := assign n m assignments
        let inner := redirect n (inner.trace (assignments.map (·.1)) []) redirections
        { inner with outputSink := m.outputSink, errorSink := m.errorSink,
                     status := if inner.flow = .goesOn then inner.substituted else inner.status }
      | command :: arguments =>
        let before := m
        let m := redirect n m redirections
        let m := (assign n m assignments).trace (assignments.map (·.1)) (command :: arguments)
        if m.flow ≠ .goesOn then { m with outputSink := before.outputSink, errorSink := before.errorSink }
        else
          let m := (assignments.map (·.1)).foldl Machine.exportName m
          let after := call n m (Tool.shown command) arguments
          if command = octets "exec" then after
          else
            let after := { after with outputSink := before.outputSink, errorSink := before.errorSink }
            -- what is assigned before a command lasts as long as the command
            (assignments.map (·.1)).foldl (fun after name =>
              match before.bindings.lookup name with
              | some value => after.set name value
              | none => after.unset name) after

def call : Nat → Machine → String → List Octets → Machine
  | 0, m, _, _ => m
  | n + 1, m, name, arguments =>
    match m.functions.lookup (octets name) with
    | some body =>
      let inner := execute n { m with arguments } body
      { inner with arguments := m.arguments,
                   flow := if inner.flow = .returns then .goesOn else inner.flow }
    | none =>
      match plainCommand m name arguments with
      | some m =>
        match m.flow with
        | .killed signal => catchSignal n m signal
        | _ => m
      | none =>
        match name, arguments with
        | ".", file :: _ =>
          if file = octets "/dev/null" then m.done
          else m.abort (".: cannot open " ++ Tool.shown file ++ ": No such file")
        | "eval", _ => runScript n m (joined arguments)
        | "command", command :: rest => call n m (Tool.shown command) rest
        | "exec", [] => m.done
        | "exec", command :: rest =>
          let known := (plainCommand m (Tool.shown command) rest).isSome || isProgram (Tool.shown command)
          let m := if known then call n m (Tool.shown command) rest
            else missing m (Tool.shown command) "exec: "
          if m.flow = .goesOn then { m with flow := .exits m.status } else m
        | "env", [] => showEnvironment m []
        | "env", a :: rest =>
          match assignmentOf a with
          | (name, some value) =>
            (call n ((m.set name value).exportName name) "env" rest).backTo m
          | (_, none) => call n m (Tool.shown a) rest
        | _, _ =>
          let program := programName name
          if !name.contains '/' && !onPath (m.bindings.lookup (octets "PATH")) then missing m name
          else if program = "sh" || program = "dash" then (startShell n m arguments).quitTo m
          else
            match Tool.find? program with
            | some tool => m.result (tool arguments m.input)
            | none =>
              if program ≠ name && (plainCommand m program arguments).isSome then
                (plainCommand m program arguments).getD m
              else missing m name

def catchSignal : Nat → Machine → Nat → Machine
  | 0, m, _ => m
  | n + 1, m, signal =>
    match if signal = 9 then none else m.traps.lookup signal with
    | none => m
    | some action =>
      let after := runScript n { m with flow := .goesOn } action
      if after.flow = .goesOn then after.done else after

def sayFarewell : Nat → Machine → Machine
  | 0, m => m
  | n + 1, m =>
    match m.flow, m.traps.lookup 0 with
    | .killed _, _ | _, none => m
    | flow, some action =>
      let after := runScript n { m with flow := .goesOn, traps := [] } action
      if after.flow = .goesOn then { after with flow, status := m.status } else after

def startShell : Nat → Machine → List Octets → Machine
  | 0, m, _ => m
  | n + 1, m, arguments =>
    let fresh := { m with functions := [], exitOnError := false, mustBeSet := false, isTraced := false, line := 1
                          bindings := m.environment, processId := m.processId + 1
                          name := octets "sh", arguments := [], traps := [] }
    match arguments with
    | ['-', 'c'] :: script :: rest =>
      let fresh := match rest with
        | name :: arguments => { fresh with name, arguments }
        | [] => fresh
      sayFarewell n (runScript n fresh script)
    | [] => sayFarewell n (runScript n fresh m.input)
    | _ => (m.complain "cannot open script").done 127

def repeatLoop : Nat → Machine → Bool → Command → Command → Machine
  | 0, m, _, _, _ => m
  | n + 1, m, wanted, test, body =>
    let status := m.status
    let inner : Machine := { execute n { m with tested := true } test with tested := m.tested }
    if inner.flow ≠ Flow.goesOn then inner.leaveLoop
    else if (inner.status = 0) = wanted then
      let inner := execute n inner.done body
      match inner.flow with
      | .goesOn | .continues 1 | .continues 0 =>
        repeatLoop n { inner with flow := .goesOn } wanted test body
      | _ => inner.leaveLoop
    else inner.done (if m.flow = .goesOn then status else inner.status)

def repeatEach : Nat → Machine → Octets → List Octets → Command → Machine
  | 0, m, _, _, _ => m
  | _ + 1, m, _, [], _ => m
  | n + 1, m, name, value :: rest, body =>
    let inner := execute n (m.set name value) body
    match inner.flow with
    | .goesOn | .continues 1 | .continues 0 => repeatEach n { inner with flow := .goesOn } name rest body
    | _ => inner.leaveLoop

def selectBranch : Nat → Machine → Octets → List (List Word × Command) → Machine
  | 0, m, _, _ => m
  | _ + 1, m, _, [] => m
  | n + 1, m, text, (patterns, body) :: rest =>
    let (found, m) := anyMatches n m text patterns
    if found then execute n m body else selectBranch n m text rest

def anyMatches : Nat → Machine → Octets → List Word → Bool × Machine
  | 0, m, _, _ => (false, m)
  | _ + 1, m, _, [] => (false, m)
  | n + 1, m, text, w :: rest =>
    let (marked, m) := expandMarked n m w
    if (patternOf marked).matches text then (true, m) else anyMatches n m text rest

def runScript : Nat → Machine → Octets → Machine
  | 0, m, _ => m
  | n + 1, m, script => runLines n m (script.filter (· = '\n')).length script

def runLines : Nat → Machine → Nat → Octets → Machine
  | 0, m, _, _ => m
  | n + 1, m, lines, cs =>
    if cs.isEmpty || m.flow ≠ .goesOn then m
    else
      match readNext lines cs with
      | .error e => { m with line := lineOf lines cs }.abort e.message
      | .ok (c, rest) => runLines n (execute n m c) lines rest
end

def Machine.outcome (m : Machine) : ProcessOutcome :=
  { output := bytes m.printed.reverse.flatten, errors := bytes m.reported.reverse.flatten,
    ending := match m.flow with
      | .killed n => .signalled n false
      | .exits n => .exited n
      | _ => .exited m.status }

def fuel : Nat := 1000000

def initial (environment : List (String × String)) : Machine :=
  let bindings := environment.map fun (k, v) => (octets k, octets v)
  { bindings, exported := bindings.map (·.1), processId := 4241 }

def run (arguments : List String) (environment : List (String × String)) : ProcessOutcome :=
  (startShell fuel (initial environment) (arguments.map octets)).outcome

def runProgram (command : String) (arguments : List String) (environment : List (String × String)) :
    Option ProcessOutcome :=
  let name := programName command
  if name = "sh" || name = "dash" then some (run arguments environment)
  else if isProgram command then
    some (call fuel (initial environment) name (arguments.map octets)).outcome
  else none

end FleetOps.Shell
