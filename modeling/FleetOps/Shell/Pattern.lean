import FleetOps.Shell.Script

set_option autoImplicit false

namespace FleetOps.Shell

structure CharSet where
  negated : Bool
  ranges : List (Char × Char)
deriving Repr

def CharSet.contains (s : CharSet) (c : Char) : Bool :=
  s.ranges.any (fun (a, b) => a ≤ c && c ≤ b) != s.negated

inductive Atom where
  | one (c : Char)
  | any
  | oneOf (s : CharSet)
deriving Repr

def Atom.admits : Atom → Char → Bool
  | .one a, c => a = c
  | .any, _ => true
  | .oneOf s, c => s.contains c

abbrev Pattern := List (Atom × Bool)

-- Whether the whole text matches; each atom takes as little as it can.
def matchesWithin : Nat → Pattern → Octets → Bool
  | 0, _, _ => false
  | _ + 1, [], cs => cs.isEmpty
  | n + 1, (a, repeated) :: ps, cs =>
    if repeated then
      matchesWithin n ps cs ||
        match cs with
        | [] => false
        | c :: rest => a.admits c && matchesWithin n ((a, true) :: ps) rest
    else
      match cs with
      | [] => false
      | c :: rest => a.admits c && matchesWithin n ps rest

def Pattern.matches (p : Pattern) (cs : Octets) : Bool :=
  matchesWithin (p.length + cs.length + 1) p cs

def readRanges : Octets → List (Char × Char) → Option (List (Char × Char) × Octets)
  | [], _ => none
  | ']' :: rest, acc => some (acc, rest)
  | a :: '-' :: b :: rest, acc =>
    if b = ']' then some (('-', '-') :: (a, a) :: acc, rest) else readRanges rest ((a, b) :: acc)
  | a :: rest, acc => readRanges rest ((a, a) :: acc)

-- Reads a set after its opening bracket; a closing bracket that comes first belongs to the set.
def readSet (cs : Octets) : Option (CharSet × Octets) :=
  let (negated, cs) := match cs with
    | '!' :: rest | '^' :: rest => (true, rest)
    | rest => (false, rest)
  match cs with
  | ']' :: rest => (readRanges rest [(']', ']')]).map fun (ranges, rest) => ({ negated, ranges }, rest)
  | rest => (readRanges rest []).map fun (ranges, rest) => ({ negated, ranges }, rest)

def wordPattern : Nat → List (Char × Bool) → Pattern
  | 0, _ => []
  | _ + 1, [] => []
  | n + 1, (c, quoted) :: cs =>
    if quoted then (.one c, false) :: wordPattern n cs
    else if c = '*' then (.any, true) :: wordPattern n cs
    else if c = '?' then (.any, false) :: wordPattern n cs
    else if c = '[' then
      match readSet (cs.map (·.1)) with
      | some (s, rest) => (.oneOf s, false) :: wordPattern n (cs.drop (cs.length - rest.length))
      | none => (.one c, false) :: wordPattern n cs
    else (.one c, false) :: wordPattern n cs

def patternOf (cs : List (Char × Bool)) : Pattern :=
  wordPattern (cs.length + 1) cs

-- The atoms of a search pattern, each with the star that may follow it.
def searchAtoms : Nat → Octets → Pattern
  | 0, _ => []
  | _ + 1, [] => []
  | n + 1, c :: cs =>
    let (a, rest) : Atom × Octets := match c, cs with
      | '\\', d :: rest => (.one d, rest)
      | '.', rest => (.any, rest)
      | '[', rest =>
        match readSet rest with
        | some (s, rest) => (.oneOf s, rest)
        | none => (.one '[', rest)
      | _, rest => (.one c, rest)
    match rest with
    | '*' :: rest => (a, true) :: searchAtoms n rest
    | rest => (a, false) :: searchAtoms n rest

def searchPattern (cs : Octets) : Pattern :=
  let (start, cs) : Pattern × Octets := match cs with
    | '^' :: rest => ([], rest)
    | rest => ([(.any, true)], rest)
  let (cs, finish) : Octets × Pattern := match cs.reverse with
    | '$' :: rest => (rest.reverse, [])
    | _ => (cs, [(.any, true)])
  start ++ searchAtoms (cs.length + 1) cs ++ finish

def literalPattern (cs : Octets) : Pattern :=
  (.any, true) :: cs.map (fun c => (.one c, false)) ++ [(.any, true)]

def dropStart (p : Pattern) (longest : Bool) (cs : Octets) : Octets :=
  let sizes := List.range (cs.length + 1)
  match (if longest then sizes.reverse else sizes).find? (fun k => p.matches (cs.take k)) with
  | some k => cs.drop k
  | none => cs

def dropEnd (p : Pattern) (longest : Bool) (cs : Octets) : Octets :=
  let sizes := List.range (cs.length + 1)
  match (if longest then sizes else sizes.reverse).find? (fun k => p.matches (cs.drop k)) with
  | some k => cs.take k
  | none => cs

end FleetOps.Shell
