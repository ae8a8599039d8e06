set_option autoImplicit false

namespace FleetOps

/-- A finite binary64 number, held as its bits: sign, 11 bits of exponent, 52 bits of fraction. -/
structure Binary64 where
  bits : UInt64
deriving DecidableEq, Repr

namespace Binary64

def isNegative (x : Binary64) : Bool :=
  9223372036854775808 ≤ x.bits.toNat

def fractionBound : Nat := 4503599627370496

def exponentField (x : Binary64) : Nat :=
  x.bits.toNat / fractionBound % 2048

def fractionField (x : Binary64) : Nat :=
  x.bits.toNat % fractionBound

-- The magnitude is `significand * 2 ^ scale`.
def significand (x : Binary64) : Nat :=
  if x.exponentField = 0 then x.fractionField else fractionBound + x.fractionField

def scale (x : Binary64) : Int :=
  if x.exponentField = 0 then -1074 else x.exponentField - 1075

-- Quarters of the unit at `scale`: below a power of two the lower neighbour is twice as near.
def lowerGap (x : Binary64) : Nat :=
  if x.fractionField = 0 ∧ 1 < x.exponentField then 1 else 2

def compareScaled (d : Nat) (k : Int) (n : Nat) (q : Int) : Ordering :=
  compare (d * Nat.pow 10 k.toNat * Nat.pow 2 (-q).toNat)
    (n * Nat.pow 2 q.toNat * Nat.pow 10 (-k).toNat)

-- Whether `d * 10 ^ k` reads back as `x`; the ends of the interval do when the significand is even.
def readsBack (x : Binary64) (d : Nat) (k : Int) : Bool :=
  let m := 4 * x.significand
  let q := x.scale - 2
  let low := compareScaled d k (m - x.lowerGap) q
  let high := compareScaled d k (m + 2) q
  if x.significand % 2 = 0 then low != .lt && high != .gt else low == .gt && high == .lt

def floorAt (x : Binary64) (k : Int) : Nat :=
  x.significand * Nat.pow 2 x.scale.toNat * Nat.pow 10 (-k).toNat /
    (Nat.pow 10 k.toNat * Nat.pow 2 (-x.scale).toNat)

-- On the grid of `10 ^ k`: the neighbour of `x` that reads back, the nearer of two, even on a tie.
def nearestOn (x : Binary64) (k : Int) : Option Nat :=
  let d := x.floorAt k
  match x.readsBack d k, x.readsBack (d + 1) k with
  | false, false => none
  | true, false => some d
  | false, true => some (d + 1)
  | true, true =>
    match compareScaled (2 * d + 1) k (2 * x.significand) x.scale with
    | .gt => some d
    | .lt => some (d + 1)
    | .eq => some (if d % 2 = 0 then d else d + 1)

-- Tries grids from coarse to fine; the finest asked for is the one given last.
def coarsest (x : Binary64) : Nat → Int → Nat × Int
  | 0, k => (x.floorAt k, k)
  | n + 1, k =>
    match x.nearestOn k with
    | some d => if d = 0 then coarsest x n (k - 1) else (d, k)
    | none => coarsest x n (k - 1)

def stripZeros : Nat → Nat → Int → Nat × Int
  | 0, d, k => (d, k)
  | n + 1, d, k => if d % 10 = 0 then stripZeros n (d / 10) (k + 1) else (d, k)

/-- The shortest decimal `d * 10 ^ k` that reads back as the magnitude of `x`. -/
def digits (x : Binary64) : Nat × Int :=
  if x.significand = 0 then (0, 0)
  else
    let (d, k) := coarsest x 800 309
    stripZeros 20 d k

-- Positional when the point falls within the first sixteen places or at most five zeros follow it.
def layoutDigits (ds : List Char) (k : Int) : List Char :=
  let point : Int := ds.length + k
  if 0 ≤ k ∧ point ≤ 16 then ds ++ List.replicate k.toNat '0' ++ ['.', '0']
  else if 0 < point ∧ point ≤ 16 then ds.take point.toNat ++ '.' :: ds.drop point.toNat
  else if -5 < point ∧ point ≤ 0 then '0' :: '.' :: List.replicate (-point).toNat '0' ++ ds
  else
    let mantissa := match ds with
      | [] => []
      | [d] => [d]
      | d :: rest => d :: '.' :: rest
    mantissa ++ 'e' :: (toString (point - 1)).toList

def text (x : Binary64) : String :=
  let (d, k) := x.digits
  let body := layoutDigits (Nat.toDigits 10 d) k
  String.ofList (if x.isNegative then '-' :: body else body)

end Binary64

end FleetOps
