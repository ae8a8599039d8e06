import FleetOps.Json.Basic

set_option autoImplicit false

namespace FleetOps.Json

def isSpace (c : Char) : Bool :=
  c = ' ' || c = '\n' || c = '\t' || c = '\r'

def hexDigit? (c : Char) : Option Nat :=
  if c.isDigit then some (c.toNat - '0'.toNat)
  else if 'a' ≤ c ∧ c ≤ 'f' then some (c.toNat - 'a'.toNat + 10)
  else if 'A' ≤ c ∧ c ≤ 'F' then some (c.toNat - 'A'.toNat + 10)
  else none

def hexUnit? : List Char → Option (Nat × List Char)
  | a :: b :: c :: d :: rest => do
    let a ← hexDigit? a
    let b ← hexDigit? b
    let c ← hexDigit? c
    let d ← hexDigit? d
    some (((a * 16 + b) * 16 + c) * 16 + d, rest)
  | _ => none

-- A high surrogate has to be followed by an escaped low one; a low one may not stand alone.
def unicodeEscape? (cs : List Char) : Option (Char × List Char) := do
  let (unit, rest) ← hexUnit? cs
  if 0xdc00 ≤ unit ∧ unit ≤ 0xdfff then none
  else if 0xd800 ≤ unit ∧ unit ≤ 0xdbff then
    match rest with
    | '\\' :: 'u' :: rest =>
      let (low, rest) ← hexUnit? rest
      if 0xdc00 ≤ low ∧ low ≤ 0xdfff then
        some (Char.ofNat (0x10000 + (unit - 0xd800) * 0x400 + (low - 0xdc00)), rest)
      else none
    | _ => none
  else some (Char.ofNat unit, rest)

def escape? : List Char → Option (Char × List Char)
  | '"' :: rest => some ('"', rest)
  | '\\' :: rest => some ('\\', rest)
  | '/' :: rest => some ('/', rest)
  | 'b' :: rest => some ('\x08', rest)
  | 'f' :: rest => some ('\x0c', rest)
  | 'n' :: rest => some ('\n', rest)
  | 'r' :: rest => some ('\r', rest)
  | 't' :: rest => some ('\t', rest)
  | 'u' :: rest => unicodeEscape? rest
  | _ => none

-- Reads up to the closing quote; `done` holds the characters so far, last first.
def readString? : Nat → List Char → List Char → Option (String × List Char)
  | 0, _, _ => none
  | _ + 1, _, [] => none
  | fuel + 1, done, c :: cs =>
    if c = '"' then some (String.ofList done.reverse, cs)
    else if c = '\\' then
      match escape? cs with
      | some (e, rest) => readString? fuel (e :: done) rest
      | none => none
    else if c.toNat < 0x20 then none
    else readString? fuel (c :: done) cs

def wordBound : Nat := 18446744073709551616

-- Digits beyond the 64 bits of a significand only move the exponent.
def significandStep (state : Nat × Int × Bool) (step : Int) (c : Char) : Nat × Int × Bool :=
  let (m, e, full) := state
  let n := 10 * m + (c.toNat - '0'.toNat)
  if full ∨ wordBound ≤ n then (m, e + (1 + step), true) else (n, e + step, false)

-- Scales in binary64 arithmetic by powers of ten up to 308; nothing when the result is infinite.
def scaleReal : Nat → Float → Int → Option Float
  | 0, _, _ => none
  | fuel + 1, f, e =>
    if e.natAbs ≤ 308 then
      let power := Float.ofScientific 1 false e.natAbs
      let g := if 0 ≤ e then f * power else f / power
      if g.isInf then none else some g
    else if f == 0.0 then some f
    else if 0 ≤ e then none
    else scaleReal fuel (f / Float.ofScientific 1 false 308) (e + 308)

def readReal? (negative : Bool) (whole fraction : List Char) (exponent : Int) : Option Json :=
  let (m, e, _) := whole.foldl (fun s c => significandStep s 0 c) (0, 0, false)
  let (m, e, _) := fraction.foldl (fun s c => significandStep s (-1) c) (m, e, false)
  if m = 0 then some (.real ⟨(if negative then -0.0 else (0.0 : Float)).toBits⟩)
  else
    match scaleReal 64 (Float.ofNat m) (e + exponent) with
    | some f => some (.real ⟨(if negative then -f else f).toBits⟩)
    | none => if e + exponent < 0 then some (.real ⟨(if negative then -0.0 else (0.0 : Float)).toBits⟩)
      else none

def digitsOf (cs : List Char) : List Char × List Char :=
  (cs.takeWhile Char.isDigit, cs.dropWhile Char.isDigit)

def natOfDigits (cs : List Char) : Nat :=
  cs.foldl (fun n c => 10 * n + (c.toNat - '0'.toNat)) 0

def readFraction? : List Char → Option (List Char × List Char)
  | '.' :: cs =>
    match digitsOf cs with
    | ([], _) => none
    | (ds, rest) => some (ds, rest)
  | cs => some ([], cs)

def readExponent? (cs : List Char) : Option (Option Int × List Char) :=
  match cs with
  | e :: rest =>
    if e = 'e' ∨ e = 'E' then
      let (sign, rest) := match rest with
        | '+' :: rest => ((1 : Int), rest)
        | '-' :: rest => (-1, rest)
        | _ => (1, rest)
      match digitsOf rest with
      | ([], _) => none
      | (ds, rest) => some (some (sign * natOfDigits ds), rest)
    else some (none, cs)
  | [] => some (none, [])

-- An integer of 64 bits stays one; any other number is a binary fraction.
def readNumber? (cs : List Char) : Option (Json × List Char) := do
  let (negative, cs) := match cs with
    | '-' :: rest => (true, rest)
    | _ => (false, cs)
  let (whole, cs) ← match digitsOf cs with
    | ([], _) => none
    | ('0' :: _ :: _, _) => none
    | found => some found
  let (fraction, cs) ← readFraction? cs
  let (exponent, cs) ← readExponent? cs
  let n := natOfDigits whole
  if fraction.isEmpty ∧ exponent.isNone ∧ !negative ∧ n < wordBound then
    some (.int n, cs)
  else if fraction.isEmpty ∧ exponent.isNone ∧ negative ∧ 0 < n ∧ 2 * n ≤ wordBound then
    some (.int (-n), cs)
  else
    let v ← readReal? negative whole fraction (exponent.getD 0)
    some (v, cs)

def skipSpace (cs : List Char) : List Char :=
  cs.dropWhile isSpace

mutual
-- Each call consumes a character or hands on a smaller fuel; the length of the text is enough.
def readValue? : Nat → List Char → Option (Json × List Char)
  | 0, _ => none
  | fuel + 1, cs =>
    match skipSpace cs with
    | 'n' :: 'u' :: 'l' :: 'l' :: rest => some (.null, rest)
    | 't' :: 'r' :: 'u' :: 'e' :: rest => some (.bool true, rest)
    | 'f' :: 'a' :: 'l' :: 's' :: 'e' :: rest => some (.bool false, rest)
    | '"' :: rest => (readString? (rest.length + 1) [] rest).map fun (s, rest) => (.str s, rest)
    | '[' :: rest =>
      match skipSpace rest with
      | ']' :: rest => some (.arr [], rest)
      | rest => (readItems? fuel rest).map fun (items, rest) => (.arr items, rest)
    | '{' :: rest =>
      match skipSpace rest with
      | '}' :: rest => some (.obj [], rest)
      | rest => (readMembers? fuel rest).map fun (members, rest) => (.obj members, rest)
    | rest => readNumber? rest

def readItems? : Nat → List Char → Option (List Json × List Char)
  | 0, _ => none
  | fuel + 1, cs =>
    match readValue? fuel cs with
    | none => none
    | some (v, rest) =>
      match skipSpace rest with
      | ']' :: rest => some ([v], rest)
      | ',' :: rest => (readItems? fuel rest).map fun (items, rest) => (v :: items, rest)
      | _ => none

def readMembers? : Nat → List Char → Option (List (String × Json) × List Char)
  | 0, _ => none
  | fuel + 1, cs =>
    match skipSpace cs with
    | '"' :: rest =>
      match readString? (rest.length + 1) [] rest with
      | none => none
      | some (name, rest) =>
        match skipSpace rest with
        | ':' :: rest =>
          match readValue? fuel rest with
          | none => none
          | some (v, rest) =>
            match skipSpace rest with
            | '}' :: rest => some ([(name, v)], rest)
            | ',' :: rest =>
              (readMembers? fuel rest).map fun (members, rest) => ((name, v) :: members, rest)
            | _ => none
        | _ => none
    | _ => none
end

mutual
def depth : Json → Nat
  | .arr items => depthItems items + 1
  | .obj members => depthMembers members + 1
  | _ => 0

def depthItems : List Json → Nat
  | [] => 0
  | v :: rest => max (depth v) (depthItems rest)

def depthMembers : List (String × Json) → Nat
  | [] => 0
  | (_, v) :: rest => max (depth v) (depthMembers rest)
end

def depthLimit : Nat := 127

def readChars? (cs : List Char) : Option Json :=
  match readValue? (2 * cs.length + 1) cs with
  | some (v, rest) => if (skipSpace rest).isEmpty ∧ depth v ≤ depthLimit then some v else none
  | none => none

def read? (text : String) : Option Json :=
  readChars? text.toList

end FleetOps.Json
