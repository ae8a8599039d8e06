set_option autoImplicit false

/-!
Faults in front of the store and of the descriptors. At each point a stream says which of the coming
calls fail; a call uses up the head of its stream, and a call that fails is not made.
-/

namespace FleetOps

inductive FaultPoint where
  | create
  | update
  | get
  | query
  | prune
  | descriptorGet
  | descriptorList
  | descriptorSet
  | descriptorVanish
deriving DecidableEq, Repr

namespace FaultPoint

def all : List FaultPoint :=
  [.create, .update, .get, .query, .prune, .descriptorGet, .descriptorList, .descriptorSet,
   .descriptorVanish]

def name : FaultPoint → String
  | .create => "create"
  | .update => "update"
  | .get => "get"
  | .query => "query"
  | .prune => "prune"
  | .descriptorGet => "descriptor_get"
  | .descriptorList => "descriptor_list"
  | .descriptorSet => "descriptor_set"
  | .descriptorVanish => "descriptor_vanish"

def ofName? (s : String) : Option FaultPoint :=
  all.find? (·.name = s)

end FaultPoint

/-- Whether the n-th coming call at a point fails. -/
abbrev Faults :=
  FaultPoint → Nat → Bool

namespace Faults

def none : Faults :=
  fun _ _ => false

def due (f : Faults) (p : FaultPoint) : Bool :=
  f p 0

def passed (f : Faults) (p : FaultPoint) : Faults :=
  fun q n => if q = p then f q (n + 1) else f q n

def plan (f : Faults) (p : FaultPoint) (skip times : Nat) : Faults :=
  fun q n => if q = p then skip ≤ n && n < skip + times else f q n

end Faults

end FleetOps
