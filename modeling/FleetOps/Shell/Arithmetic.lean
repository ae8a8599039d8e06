import FleetOps.Shell.Reader
import FleetOps.Text.Numeral

set_option autoImplicit false

namespace FleetOps.Shell

def wordSize : Nat := 18446744073709551616

def wrapped (n : Int) : Int :=
  n.bmod wordSize

inductive ArithmeticError where
  | divisionByZero
  | expectingPrimary
  | expectingEnd
deriving DecidableEq, Repr

def ArithmeticError.message : ArithmeticError → String
  | .divisionByZero => "division by zero"
  | .expectingPrimary => "expecting primary"
  | .expectingEnd => "expecting EOF"

def skipWhite (cs : Octets) : Octets :=
  cs.dropWhile fun c => isSpace c || c = '\n'

def readNumeral (cs : Octets) : Option (Int × Octets) :=
  let digit? (base : Nat) (c : Char) : Option Nat :=
    let v := if c.isDigit then c.toNat - '0'.toNat
      else if 'a' ≤ c ∧ c ≤ 'f' then c.toNat - 'a'.toNat + 10
      else if 'A' ≤ c ∧ c ≤ 'F' then c.toNat - 'A'.toNat + 10
      else 99
    if v < base then some v else none
  let readIn (base : Nat) (cs : Octets) : Option (Int × Octets) :=
    let ds := cs.takeWhile fun c => (digit? base c).isSome
    if ds.isEmpty then none
    else
      let n := (ds.filterMap (digit? base)).foldl (fun n d => n * base + d) 0
      some (n, cs.drop ds.length)
  match cs with
  | '0' :: x :: rest =>
    if x = 'x' || x = 'X' then readIn 16 rest
    else if x.isDigit then readIn 8 (x :: rest)
    else some (0, x :: rest)
  | c :: _ => if c.isDigit then readIn 10 cs else none
  | [] => none

def wholeNumeral (cs : Octets) : Option Int :=
  (readNumeral cs).bind fun (n, rest) => if (skipWhite rest).isEmpty then some n else none

def numberOf (cs : Octets) : Option Int :=
  match skipWhite cs with
  | [] => some 0
  | '-' :: rest => (wholeNumeral rest).map (-·)
  | rest => wholeNumeral rest

abbrev Bindings := List (Octets × Octets)

def numeralText (n : Int) : Octets :=
  (toString n).toList

-- The binary operators, the tightest first; of two that begin alike the longer stands first.
def operators : List (List String) :=
  [["*", "/", "%"], ["+", "-"], ["<<", ">>"], ["<=", ">=", "<", ">"], ["==", "!="], ["&"], ["^"],
   ["|"], ["&&"], ["||"]]

def ofBool (b : Bool) : Int :=
  if b then 1 else 0

def applyOperator (op : String) (a b : Int) : Except ArithmeticError Int :=
  match op with
  | "*" => .ok (wrapped (a * b))
  | "/" => if b = 0 then .error .divisionByZero else .ok (wrapped (Int.tdiv a b))
  | "%" => if b = 0 then .error .divisionByZero else .ok (Int.tmod a b)
  | "+" => .ok (wrapped (a + b))
  | "-" => .ok (wrapped (a - b))
  | "<<" => .ok (wrapped (a * Nat.pow 2 (b.toNat % 64)))
  | ">>" => .ok (Int.fdiv a (Nat.pow 2 (b.toNat % 64)))
  | "<=" => .ok (ofBool (a ≤ b))
  | ">=" => .ok (ofBool (b ≤ a))
  | "<" => .ok (ofBool (a < b))
  | ">" => .ok (ofBool (b < a))
  | "==" => .ok (ofBool (a = b))
  | "!=" => .ok (ofBool (a ≠ b))
  | "&" => .ok ((BitVec.ofInt 64 a &&& BitVec.ofInt 64 b).toInt)
  | "^" => .ok ((BitVec.ofInt 64 a ^^^ BitVec.ofInt 64 b).toInt)
  | "|" => .ok ((BitVec.ofInt 64 a ||| BitVec.ofInt 64 b).toInt)
  | "&&" => .ok (ofBool (a ≠ 0 && b ≠ 0))
  | _ => .ok (ofBool (a ≠ 0 || b ≠ 0))

-- The operator of a rank that stands here, unless it is the start of a longer one.
def operatorAt (ops : List String) (cs : Octets) : Option (String × Octets) :=
  ops.findSome? fun op =>
    if op.toList.isPrefixOf cs then
      let rest := cs.drop op.length
      let longer := match op, rest with
        | "&", '&' :: _ | "|", '|' :: _ | "<", '<' :: _ | ">", '>' :: _ => true
        | "==", _ | "!=", _ | "<=", _ | ">=", _ | "&&", _ | "||", _ => false
        | _, '=' :: '=' :: _ => false
        | _, '=' :: _ => true
        | _, _ => false
      if longer then none else some (op, rest)
    else none

structure Computed where
  value : Int
  rest : Octets
  bindings : Bindings

def assignment? (name : Octets) (cs : Octets) : Option (String × Octets) :=
  match name with
  | [] => none
  | c :: _ =>
    if !isNameStart c then none
    else
      match cs with
      | '=' :: '=' :: _ => none
      | '=' :: rest => some ("", rest)
      | o :: '=' :: rest =>
        if ['+', '-', '*', '/', '%', '&', '|', '^'].contains o then some (String.ofList [o], rest)
        else none
      | _ => none

mutual
def compute : Nat → Bindings → Octets → Except ArithmeticError Computed
  | 0, _, _ => .error .expectingPrimary
  | n + 1, vs, cs => do
    let cs := skipWhite cs
    let name := cs.takeWhile isNameChar
    let after := skipWhite (cs.drop name.length)
    match assignment? name after with
    | some (op, rest) =>
      let right ← compute n vs rest
      let old := (numberOf ((right.bindings.lookup name).getD [])).getD 0
      let value ← if op = "" then pure right.value else applyOperator op old right.value
      return { right with value, bindings := (name, numeralText value) :: right.bindings }
    | none =>
      let test ← computeRank n operators.reverse vs cs
      match skipWhite test.rest with
      | '?' :: rest =>
        let yes ← compute n test.bindings rest
        match skipWhite yes.rest with
        | ':' :: rest =>
          let no ← compute n yes.bindings rest
          return { no with value := if test.value ≠ 0 then yes.value else no.value }
        | _ => throw .expectingPrimary
      | _ => return test

def computeRank : Nat → List (List String) → Bindings → Octets → Except ArithmeticError Computed
  | 0, _, _, _ => .error .expectingPrimary
  | n + 1, [], vs, cs => computePrimary n vs (skipWhite cs)
  | n + 1, ops :: tighter, vs, cs => do
    let left ← computeRank n tighter vs cs
    computeRest n ops tighter left

def computeRest : Nat → List String → List (List String) → Computed →
    Except ArithmeticError Computed
  | 0, _, _, left => .ok left
  | n + 1, ops, tighter, left =>
    match operatorAt ops (skipWhite left.rest) with
    | none => .ok left
    | some (op, rest) => do
      let right ← computeRank n tighter left.bindings rest
      let value ← applyOperator op left.value right.value
      computeRest n ops tighter { right with value }

def computePrimary : Nat → Bindings → Octets → Except ArithmeticError Computed
  | 0, _, _ => .error .expectingPrimary
  | n + 1, vs, cs =>
    match cs with
    | '(' :: rest => do
      let inner ← compute n vs rest
      match skipWhite inner.rest with
      | ')' :: rest => return { inner with rest }
      | _ => throw .expectingPrimary
    | '-' :: rest => do
      let inner ← computePrimary n vs (skipWhite rest)
      return { inner with value := wrapped (-inner.value) }
    | '+' :: rest => computePrimary n vs (skipWhite rest)
    | '!' :: rest => do
      let inner ← computePrimary n vs (skipWhite rest)
      return { inner with value := ofBool (inner.value = 0) }
    | '~' :: rest => do
      let inner ← computePrimary n vs (skipWhite rest)
      return { inner with value := -inner.value - 1 }
    | _ =>
      match readNumeral cs with
      | some (value, rest) => .ok { value := wrapped value, rest, bindings := vs }
      | none =>
        let name := cs.takeWhile isNameChar
        if name.isEmpty then .error .expectingPrimary
        else
          let value := (numberOf ((vs.lookup name).getD [])).getD 0
          .ok { value, rest := cs.drop name.length, bindings := vs }
end

def evaluate (vs : Bindings) (expression : Octets) : Except ArithmeticError (Int × Bindings) := do
  let c ← compute (16 * expression.length + 32) vs expression
  if (skipWhite c.rest).isEmpty then return (c.value, c.bindings) else throw .expectingEnd

end FleetOps.Shell
