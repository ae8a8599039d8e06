import FleetOps.Shell.Arithmetic

set_option autoImplicit false

namespace FleetOps.Shell

def isOctal (c : Char) : Bool :=
  '0' ≤ c && c ≤ '7'

def readOctal (width : Nat) (cs : Octets) : Char × Octets :=
  let ds := (cs.take width).takeWhile isOctal
  (Char.ofNat ((ds.foldl (fun n c => 8 * n + (c.toNat - '0'.toNat)) 0) % 256), cs.drop ds.length)

def readEscape (cs : Octets) : Octets × Octets :=
  match cs with
  | [] => (['\\'], [])
  | c :: rest =>
    match c with
    | 'a' => ([Char.ofNat 7], rest)
    | 'b' => ([Char.ofNat 8], rest)
    | 'f' => ([Char.ofNat 12], rest)
    | 'n' => (['\n'], rest)
    | 'r' => (['\r'], rest)
    | 't' => (['\t'], rest)
    | 'v' => ([Char.ofNat 11], rest)
    | '\\' => (['\\'], rest)
    | '"' => (['"'], rest)
    | _ =>
      if isOctal c then
        let (o, rest) := readOctal 3 (c :: rest)
        ([o], rest)
      else (['\\', c], rest)

-- The text with its escapes resolved, and whether all of it counts: `\c` ends the output.
def unescaped : Nat → Octets → Octets × Bool
  | 0, cs => (cs, true)
  | _ + 1, [] => ([], true)
  | _ + 1, '\\' :: 'c' :: _ => ([], false)
  | n + 1, '\\' :: '0' :: rest =>
    let (o, rest) := readOctal 3 rest
    let (cs, whole) := unescaped n rest
    (o :: cs, whole)
  | n + 1, '\\' :: rest =>
    let (e, rest) := readEscape rest
    let (cs, whole) := unescaped n rest
    (e ++ cs, whole)
  | n + 1, c :: rest =>
    let (cs, whole) := unescaped n rest
    (c :: cs, whole)

def unescape (cs : Octets) : Octets × Bool :=
  unescaped cs.length cs

def joined (words : List Octets) : Octets :=
  [' '].intercalate words

def echoText (words : List Octets) : Octets :=
  let (newline, words) := match words with
    | ['-', 'n'] :: rest => (false, rest)
    | _ => (true, words)
  let (text, whole) := unescape (joined words)
  if newline && whole then text ++ ['\n'] else text

structure Directive where
  leftAligned : Bool := false
  zeroFilled : Bool := false
  signed : Bool := false
  spaced : Bool := false
  alternate : Bool := false
  width : Nat := 0
  precision : Option Nat := none

def padTo (d : Directive) (cs : Octets) : Octets :=
  let fill := List.replicate (d.width - cs.length) ' '
  if d.leftAligned then cs ++ fill else fill ++ cs

def limited (d : Directive) (cs : Octets) : Octets :=
  match d.precision with
  | some p => cs.take p
  | none => cs

-- Digits with their sign: the precision counts digits, and zeros may fill the width.
def numberText (d : Directive) (sign : Octets) (digits : Octets) : Octets :=
  match d.precision with
  | some p => padTo d (sign ++ List.replicate (p - digits.length) '0' ++ digits)
  | none =>
    if d.zeroFilled && !d.leftAligned then
      sign ++ List.replicate (d.width - sign.length - digits.length) '0' ++ digits
    else padTo d (sign ++ digits)

def readFlags (d : Directive) : Octets → Directive × Octets
  | '-' :: cs => readFlags { d with leftAligned := true } cs
  | '0' :: cs => readFlags { d with zeroFilled := true } cs
  | '+' :: cs => readFlags { d with signed := true } cs
  | ' ' :: cs => readFlags { d with spaced := true } cs
  | '#' :: cs => readFlags { d with alternate := true } cs
  | cs => (d, cs)

def readCount (cs : Octets) : Nat × Octets :=
  let ds := cs.takeWhile Char.isDigit
  (Text.digitsValue ds, cs.drop ds.length)

structure Printing where
  text : Octets := []
  arguments : List Octets
  consumed : Bool := false
  faults : List Octets := []
  stopped : Bool := false

def Printing.add (p : Printing) (cs : Octets) : Printing :=
  { p with text := p.text ++ cs }

def Printing.next (p : Printing) : Option Octets × Printing :=
  match p.arguments with
  | [] => (none, { p with consumed := true })
  | a :: rest => (some a, { p with arguments := rest, consumed := true })

def argumentNumber (a : Octets) : Option Int :=
  match a with
  | '"' :: c :: _ => some c.toNat
  | c :: d :: _ => if c = quoteMark then some d.toNat else numberOf a
  | _ => numberOf a

def Printing.nextNumber (p : Printing) : Int × Printing :=
  match p.next with
  | (none, p) => (0, p)
  | (some a, p) =>
    match argumentNumber a with
    | some n => (n, p)
    | none => (0, { p with faults := p.faults ++ [a] })

-- Numbers without a sign are taken modulo the size of a word.
def unsigned (n : Int) : Nat :=
  (n.emod wordSize).toNat

def directive (p : Printing) (d : Directive) (conversion : Char) : Printing :=
  let signOf (n : Int) : Octets :=
    if n < 0 then ['-'] else if d.signed then ['+'] else if d.spaced then [' '] else []
  match conversion with
  | '%' => p.add ['%']
  | 's' =>
    let (a, p) := p.next
    p.add (padTo d (limited d (a.getD [])))
  | 'b' =>
    let (a, p) := p.next
    let (text, whole) := unescape (a.getD [])
    { p.add (padTo d (limited d text)) with stopped := !whole }
  | 'c' =>
    let (a, p) := p.next
    p.add (padTo d ((a.getD []).take 1))
  | 'd' | 'i' =>
    let (n, p) := p.nextNumber
    p.add (numberText d (signOf n) (Nat.toDigits 10 n.natAbs))
  | 'u' =>
    let (n, p) := p.nextNumber
    p.add (numberText d [] (Nat.toDigits 10 (unsigned n)))
  | 'o' =>
    let (n, p) := p.nextNumber
    p.add (numberText d (if d.alternate then ['0'] else []) (Nat.toDigits 8 (unsigned n)))
  | 'x' =>
    let (n, p) := p.nextNumber
    let mark := if d.alternate ∧ n ≠ 0 then ['0', 'x'] else []
    p.add (numberText d mark (Nat.toDigits 16 (unsigned n)))
  | 'X' =>
    let (n, p) := p.nextNumber
    let mark := if d.alternate ∧ n ≠ 0 then ['0', 'X'] else []
    p.add (numberText d mark ((Nat.toDigits 16 (unsigned n)).map Char.toUpper))
  | _ => { p with stopped := true }

def printOnce : Nat → Octets → Printing → Printing
  | 0, _, p => p
  | _ + 1, [], p => p
  | n + 1, '\\' :: rest, p =>
    let (e, rest) := readEscape rest
    printOnce n rest (p.add e)
  | n + 1, '%' :: rest, p =>
    let (d, rest) := readFlags {} rest
    let (width, rest) := readCount rest
    let (precision, rest) := match rest with
      | '.' :: rest => let (k, rest) := readCount rest; (some k, rest)
      | rest => (none, rest)
    match rest with
    | [] => { p with stopped := true }
    | c :: rest =>
      let p := directive p { d with width, precision } c
      if p.stopped then p else printOnce n rest p
  | n + 1, cs, p =>
    let plain := cs.takeWhile fun c => c ≠ '\\' && c ≠ '%'
    printOnce n (cs.drop plain.length) (p.add plain)

-- The pieces that are printed, the last one first.
def printAll : Nat → Octets → List Octets → List Octets → List Octets × List Octets
  | 0, _, _, printed => (printed, [])
  | n + 1, format, arguments, printed =>
    let p := printOnce (format.length + 1) format { arguments }
    if p.stopped || !p.consumed || p.arguments.isEmpty then (p.text :: printed, p.faults)
    else
      let (printed, faults) := printAll n format p.arguments (p.text :: printed)
      (printed, p.faults ++ faults)

def printfText (format : Octets) (arguments : List Octets) : Octets × List Octets :=
  let (printed, faults) := printAll (arguments.length + 1) format arguments []
  (printed.reverse.flatten, faults)

end FleetOps.Shell
