set_option autoImplicit false

namespace FleetOps.Text

structure Utf8Fault where
  validUpTo : Nat
  badLength : Option Nat
deriving DecidableEq, Repr

inductive Utf8Step where
  | character (length : Nat)
  | bad (length : Nat)
  | cutShort
deriving DecidableEq, Repr

def isContinuation (b : UInt8) : Bool :=
  0x80 ≤ b && b ≤ 0xBF

-- The bytes that may follow a first byte of three or of four.
def secondOf (a b : UInt8) : Bool :=
  if a = 0xE0 then 0xA0 ≤ b && b ≤ 0xBF
  else if a = 0xED then 0x80 ≤ b && b ≤ 0x9F
  else if a = 0xF0 then 0x90 ≤ b && b ≤ 0xBF
  else if a = 0xF4 then 0x80 ≤ b && b ≤ 0x8F
  else isContinuation b

def utf8Step (a : UInt8) (rest : List UInt8) : Utf8Step :=
  if a < 0x80 then .character 1
  else if 0xC2 ≤ a ∧ a ≤ 0xDF then
    match rest with
    | [] => .cutShort
    | b :: _ => if isContinuation b then .character 2 else .bad 1
  else if 0xE0 ≤ a ∧ a ≤ 0xEF then
    match rest with
    | [] => .cutShort
    | b :: rest =>
      if !secondOf a b then .bad 1
      else
        match rest with
        | [] => .cutShort
        | c :: _ => if isContinuation c then .character 3 else .bad 2
  else if 0xF0 ≤ a ∧ a ≤ 0xF4 then
    match rest with
    | [] => .cutShort
    | b :: rest =>
      if !secondOf a b then .bad 1
      else
        match rest with
        | [] => .cutShort
        | c :: rest =>
          if !isContinuation c then .bad 2
          else
            match rest with
            | [] => .cutShort
            | d :: _ => if isContinuation d then .character 4 else .bad 3
  else .bad 1

-- `skip` bytes belong to the character found last.
def faultFrom (position : Nat) : Nat → List UInt8 → Option Utf8Fault
  | _, [] => none
  | skip + 1, _ :: rest => faultFrom (position + 1) skip rest
  | 0, a :: rest =>
    match utf8Step a rest with
    | .character n => faultFrom (position + 1) (n - 1) rest
    | .bad n => some { validUpTo := position, badLength := some n }
    | .cutShort => some { validUpTo := position, badLength := none }

def utf8Fault? (bs : List UInt8) : Option Utf8Fault :=
  faultFrom 0 0 bs

def decodeUtf8 (bs : List UInt8) : Except Utf8Fault String :=
  match utf8Fault? bs with
  | some fault => .error fault
  | none => .ok ((String.fromUTF8? ⟨bs.toArray⟩).getD "")

end FleetOps.Text
