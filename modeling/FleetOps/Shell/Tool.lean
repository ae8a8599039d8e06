import FleetOps.Shell.Format
import FleetOps.Shell.Pattern

set_option autoImplicit false

namespace FleetOps.Shell

structure ToolResult where
  output : Octets := []
  errors : Octets := []
  status : Nat := 0

namespace Tool

def lines (cs : Octets) : List Octets :=
  let parts := cs.splitOn '\n'
  if parts.getLast? = some [] then parts.dropLast else parts

def unlines (ls : List Octets) : Octets :=
  ls.flatMap (· ++ ['\n'])

def text (s : String) : Octets := octets s

def complaint (s : String) (status : Nat := 1) : ToolResult :=
  { errors := octets (s ++ "\n"), status }

def shown (cs : Octets) : String :=
  match String.fromUTF8? ⟨(bytes cs).toArray⟩ with
  | some s => s
  | none => String.ofList cs

def folders : List String :=
  ["/", ".", "..", "/tmp", "/dev", "/etc", "/bin", "/usr", "/usr/bin", "/var", "/proc"]

def plainFiles : List String :=
  ["/dev/null", "/etc/passwd", "/etc/group", "/etc/hosts", "/etc/hostname"]

def contentOf (input : Octets) (file : Octets) : Option Octets :=
  if file = text "/dev/null" then some []
  else if file = ['-'] || file = text "/dev/stdin" then some input
  else none

def cat (arguments : List Octets) (input : Octets) : ToolResult :=
  let files := if arguments.isEmpty then [['-']] else arguments
  files.foldl (fun r file =>
    match contentOf input file with
    | some content => { r with output := r.output ++ content }
    | none =>
      let cause := if folders.contains (shown file) then ": Is a directory\n"
        else ": No such file or directory\n"
      { r with errors := r.errors ++ octets ("cat: " ++ shown file ++ cause), status := 1 }) {}

def numbersFrom (first step last : Int) : List Int :=
  if step = 0 then []
  else
    let count := if 0 < step then (last - first) / step + 1 else (first - last) / -step + 1
    (List.range count.toNat).map fun (k : Nat) => first + (k : Int) * step

def seq (arguments : List Octets) : ToolResult :=
  let print (ns : List Int) : ToolResult := { output := unlines (ns.map numeralText) }
  match arguments.mapM numberOf with
  | some [last] => print (numbersFrom 1 1 last)
  | some [first, last] => print (numbersFrom first 1 last)
  | some [first, step, last] => print (numbersFrom first step last)
  | some _ => complaint "seq: missing operand"
  | none => complaint "seq: invalid floating point argument"

inductive Amount where
  | lines (n : Nat)
  | octets (n : Nat)

def amount? (arguments : List Octets) : Amount × List Octets :=
  let count (cs : Octets) : Nat := ((numberOf cs).getD 0).toNat
  match arguments with
  | ['-', 'n'] :: k :: rest => (.lines (count k), rest)
  | ['-', 'c'] :: k :: rest => (.octets (count k), rest)
  | ('-' :: 'n' :: k) :: rest => (.lines (count k), rest)
  | ('-' :: 'c' :: k) :: rest => (.octets (count k), rest)
  | ('-' :: d :: k) :: rest =>
    if d.isDigit then (.lines (count (d :: k)), rest) else (.lines 10, ('-' :: d :: k) :: rest)
  | rest => (.lines 10, rest)

def inputOf (files : List Octets) (input : Octets) : Octets :=
  (files.head?.bind (contentOf input)).getD input

def firstLines : Nat → Octets → Octets
  | 0, _ => []
  | n + 1, cs =>
    let line := cs.takeWhile (· ≠ '\n')
    match cs.drop line.length with
    | [] => line
    | _ :: rest => line ++ '\n' :: firstLines n rest

def head (arguments : List Octets) (input : Octets) : ToolResult :=
  match amount? arguments with
  | (.lines n, files) => { output := firstLines n (inputOf files input) }
  | (.octets n, files) =>
    if files.head? = some (text "/dev/zero") then { output := List.replicate n (Char.ofNat 0) }
    else { output := (inputOf files input).take n }

def tail (arguments : List Octets) (input : Octets) : ToolResult :=
  match amount? arguments with
  | (.lines n, files) =>
    let cs := inputOf files input
    let ls := lines cs
    let kept := unlines (ls.drop (ls.length - n))
    { output := if cs.getLast? = some '\n' then kept else kept.dropLast }
  | (.octets n, files) =>
    let cs := inputOf files input
    { output := cs.drop (cs.length - n) }

def wordsOf (cs : Octets) : List Octets :=
  (cs.splitBy fun a b => a.isWhitespace == b.isWhitespace).filter fun w => !w.any Char.isWhitespace

def wc (arguments : List Octets) (input : Octets) : ToolResult :=
  let newlines := (input.filter (· = '\n')).length
  let counts : List (Option Nat) := [
    if arguments.contains ['-', 'l'] then some newlines else none,
    if arguments.contains ['-', 'w'] then some (wordsOf input).length else none,
    if arguments.contains ['-', 'c'] then some input.length else none]
  match counts.filterMap id with
  | [n] => { output := numeralText n ++ ['\n'] }
  | _ =>
    let column (n : Nat) := padTo { width := 7 } (numeralText n)
    { output := joined (List.map column [newlines, (wordsOf input).length, input.length]) ++ ['\n'] }

def sort (arguments : List Octets) (input : Octets) : ToolResult :=
  let flag (c : Char) : Bool := arguments.any fun a => a.head? = some '-' && a.contains c
  let number (cs : Octets) : Int :=
    (numberOf (cs.takeWhile fun c => c = '-' || c.isDigit)).getD 0
  let atMost (a b : Octets) : Bool :=
    if flag 'n' && number a ≠ number b then number a ≤ number b else String.ofList a ≤ String.ofList b
  let sorted := (lines input).mergeSort atMost
  let sorted := if flag 'u' then sorted.eraseReps else sorted
  { output := unlines (if flag 'r' then sorted.reverse else sorted) }

def uniq (arguments : List Octets) (input : Octets) : ToolResult :=
  let runs := (lines input).splitBy (· == ·)
  let counted := arguments.contains ['-', 'c']
  { output := unlines <| runs.filterMap fun run => run.head?.map fun line =>
      if counted then padTo { width := 7 } (numeralText run.length) ++ ' ' :: line else line }

def yes (arguments : List Octets) : ToolResult :=
  let line := (if arguments.isEmpty then ['y'] else joined arguments) ++ ['\n']
  { output := (List.replicate 20000 line).flatten }

def basename (arguments : List Octets) : ToolResult :=
  match arguments with
  | [] => complaint "basename: missing operand"
  | path :: rest =>
    let name := ((path.reverse.dropWhile (· = '/')).takeWhile (· ≠ '/')).reverse
    let ending := rest.headD []
    let shorter := if ending.isSuffixOf name && ending ≠ name then name.take (name.length - ending.length) else name
    { output := (if shorter.isEmpty then path.take 1 else shorter) ++ ['\n'] }

def dirname (arguments : List Octets) : ToolResult :=
  match arguments with
  | [] => complaint "dirname: missing operand"
  | path :: _ =>
    let before := ((path.reverse.dropWhile (· = '/')).dropWhile (· ≠ '/')).dropWhile (· = '/')
    let folder := if !before.isEmpty then before.reverse else if path.head? = some '/' then ['/'] else ['.']
    { output := folder ++ ['\n'] }

def ls (arguments : List Octets) : ToolResult :=
  let absent := arguments.filter fun a =>
    a.head? ≠ some '-' && !(folders ++ plainFiles).contains (shown a)
  { errors := absent.flatMap fun a =>
      octets ("ls: cannot access '" ++ shown a ++ "': No such file or directory\n")
    status := if absent.isEmpty then 0 else 2 }

def expandRanges : Octets → Octets
  | '\\' :: rest =>
    let (e, after) := readEscape rest
    if after.length < rest.length then e ++ expandRanges after else e
  | a :: '-' :: b :: rest =>
    ((List.range (b.toNat + 1 - a.toNat)).map fun k => Char.ofNat (a.toNat + k)) ++ expandRanges rest
  | a :: rest => a :: expandRanges rest
  | [] => []
termination_by cs => cs.length

def tr (arguments : List Octets) (input : Octets) : ToolResult :=
  match arguments with
  | [['-', 'd'], set] =>
    let set := expandRanges set
    { output := input.filter fun c => !set.contains c }
  | [source, target] =>
    let target := expandRanges target
    let table := (expandRanges source).mapIdx fun i c => (c, (target[i]?).or target.getLast?)
    { output := input.map fun c => ((table.lookup c).join).getD c }
  | _ => complaint "tr: missing operand"

def grep (arguments : List Octets) (input : Octets) : ToolResult :=
  let options := (arguments.takeWhile fun a => a.head? = some '-').flatMap (·.drop 1)
  let operands := arguments.dropWhile fun a => a.head? = some '-'
  match operands with
  | [] => complaint "Usage: grep [OPTION]... PATTERNS [FILE]..." 2
  | pattern :: _ =>
    let lower (cs : Octets) := if options.contains 'i' then cs.map Char.toLower else cs
    let p := if options.contains 'F' then literalPattern (lower pattern)
      else searchPattern (lower pattern)
    let found := (lines input).filter fun l => p.matches (lower l) != options.contains 'v'
    let status := if found.isEmpty then 1 else 0
    if options.contains 'q' then { status }
    else if options.contains 'c' then { output := numeralText found.length ++ ['\n'], status }
    else { output := unlines found, status }

inductive TestError where
  | illegalNumber (cs : Octets)
  | unexpectedOperator (cs : Octets)

def TestError.message : TestError → String
  | .illegalNumber cs => "Illegal number: " ++ shown cs
  | .unexpectedOperator cs => shown cs ++ ": unexpected operator"

def numberFor (cs : Octets) : Except TestError Int :=
  match cs, numberOf cs with
  | [], _ | _, none => .error (.illegalNumber cs)
  | _, some n => .ok n

def testUnary (op : String) (a : Octets) : Option Bool :=
  match op with
  | "-n" => some (!a.isEmpty)
  | "-z" => some a.isEmpty
  | "-d" => some (folders.contains (shown a))
  | "-e" | "-r" => some ((folders ++ plainFiles).contains (shown a))
  | "-f" | "-s" => some (a ≠ text "/dev/null" && plainFiles.contains (shown a))
  | "-x" => some (folders.contains (shown a))
  | "-w" | "-h" | "-L" | "-t" => some false
  | _ => none

def testBinary (op : String) (a b : Octets) : Option (Except TestError Bool) :=
  let compare (f : Int → Int → Bool) : Except TestError Bool := do
    return f (← numberFor a) (← numberFor b)
  match op with
  | "=" | "==" => some (.ok (a = b))
  | "!=" => some (.ok (a ≠ b))
  | "-eq" => some (compare fun x y => x = y)
  | "-ne" => some (compare fun x y => x ≠ y)
  | "-lt" => some (compare fun x y => x < y)
  | "-le" => some (compare fun x y => x ≤ y)
  | "-gt" => some (compare fun x y => y < x)
  | "-ge" => some (compare fun x y => y ≤ x)
  | _ => none

def test : Nat → List Octets → Except TestError Bool
  | 0, _ => .ok false
  | _ + 1, [] => .ok false
  | _ + 1, [a] => .ok (!a.isEmpty)
  | n + 1, words =>
    match words.span (· ≠ text "-o") with
    | (left, _ :: right) => do return (← test n left) || (← test n right)
    | (_, []) =>
      match words.span (· ≠ text "-a") with
      | (left, _ :: right) => do return (← test n left) && (← test n right)
      | (_, []) =>
        match words with
        | [a, op, b] =>
          match testBinary (shown op) a b with
          | some answer => answer
          | none =>
            if a = ['!'] then (test n [op, b]).map (!·) else .error (.unexpectedOperator op)
        | ['!'] :: rest => (test n rest).map (!·)
        | [op, a] =>
          match testUnary (shown op) a with
          | some answer => .ok answer
          | none => .error (.unexpectedOperator a)
        | _ => .error (.unexpectedOperator ((words[1]?).getD []))

def find? (name : String) : Option (List Octets → Octets → ToolResult) :=
  match name with
  | "cat" => some cat
  | "seq" => some fun a _ => seq a
  | "head" => some head
  | "tail" => some tail
  | "wc" => some wc
  | "sort" => some sort
  | "uniq" => some uniq
  | "yes" => some fun a _ => yes a
  | "basename" => some fun a _ => basename a
  | "dirname" => some fun a _ => dirname a
  | "ls" => some fun a _ => ls a
  | "tee" => some fun _ i => { output := i }
  | "tr" => some tr
  | "grep" => some grep
  | "sleep" | "sync" | "touch" => some fun _ _ => {}
  | _ => none

end Tool

end FleetOps.Shell
