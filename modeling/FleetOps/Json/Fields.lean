import FleetOps.Json.Basic

set_option autoImplicit false

/-!
Reading structures from JSON: by field name, where a declared name may occur once and others are
passed over, or by position, as an array of the fields in their order.
-/

namespace FleetOps.Json

structure Fields where
  byName : Bool
  values : List (String × Json)

namespace Fields

def countName (name : String) (members : List (String × Json)) : Nat :=
  (members.filter fun m => m.1 = name).length

def of? (names : List String) : Json → Option Fields
  | .obj members =>
    if names.all fun n => countName n members ≤ 1 then some ⟨true, members⟩ else none
  | .arr items => if items.length ≤ names.length then some ⟨false, names.zip items⟩ else none
  | _ => none

def find? (f : Fields) (name : String) : Option Json :=
  member? name f.values

variable {α : Type}

def required (f : Fields) (name : String) (read : Json → Option α) : Option α :=
  (f.find? name).bind read

def withDefault (f : Fields) (name : String) (read : Json → Option α) (default : α) : Option α :=
  match f.find? name with
  | some v => read v
  | none => some default

def nullable (read : Json → Option α) : Json → Option (Option α)
  | .null => some none
  | v => (read v).map some

def optional (f : Fields) (name : String) (read : Json → Option α) : Option (Option α) :=
  f.withDefault name (nullable read) none

-- A field that may be left out or `null` by name, and only `null` by position.
def optionalByName (f : Fields) (name : String) (read : Json → Option α) : Option (Option α) :=
  if f.byName then f.optional name read else f.required name (nullable read)

end Fields

def list? {α : Type} (read : Json → Option α) (v : Json) : Option (List α) :=
  v.arr?.bind (·.mapM read)

-- The members of an object as a table: a later entry replaces its namesake.
def table? {α : Type} (read : Json → Option α) : Json → Option (List (String × α))
  | .obj members => do
    let entries ← members.mapM fun m => (read m.2).map (m.1, ·)
    some (entries.foldl (fun table e => table.filter (·.1 ≠ e.1) ++ [e]) [])
  | _ => none

def constant? : Json → Option String
  | .str s => some s
  | .obj [(name, .null)] => some name
  | _ => none

def case? : Json → Option (String × Json)
  | .obj [member] => some member
  | _ => none

end FleetOps.Json
