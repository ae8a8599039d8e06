import FleetOps.Json.Basic

set_option autoImplicit false

/-!
Tables under construction. How a table came about decides what may still be added to it: one made by
its header is complete, one made on the way to a deeper header may still get its own, and one made by
dotted keys takes only dotted keys.
-/

namespace FleetOps.Toml

inductive TableOrigin where
  | header
  | path
  | dotted
deriving DecidableEq, Repr

inductive Node where
  | value (v : Json)
  | table (origin : TableOrigin) (entries : List (String × Node))
  | tables (items : List (List (String × Node)))

abbrev Entries := List (String × Node)

namespace Entries

def get? (es : Entries) (key : String) : Option Node :=
  (es.find? (·.1 = key)).map (·.2)

def set (key : String) (node : Node) : Entries → Entries
  | [] => [(key, node)]
  | (k, n) :: rest => if k = key then (key, node) :: rest else (k, n) :: set key node rest

def remove (es : Entries) (key : String) : Entries :=
  es.filter (·.1 ≠ key)

/--
Changes the table at the end of a path, making the tables on the way. A path of dotted keys may not
enter a table that has its own header.
-/
def changeAt (dotted : Bool) (change : TableOrigin → Entries → Option Entries) :
    List String → TableOrigin → Entries → Option Entries
  | [], origin, es => change origin es
  | key :: rest, _, es =>
    match es.get? key with
    | none =>
      let origin := if dotted then TableOrigin.dotted else .path
      (changeAt dotted change rest origin []).map fun inner => es.set key (.table origin inner)
    | some (.value _) => none
    | some (.table origin inner) =>
      if dotted ∧ origin = .header then none
      else (changeAt dotted change rest origin inner).map fun inner =>
        es.set key (.table origin inner)
    | some (.tables items) =>
      match items.getLast? with
      | none => none
      | some inner => (changeAt dotted change rest .header inner).map fun inner =>
        es.set key (.tables (items.dropLast ++ [inner]))

def addValue (es : Entries) (path : List String) (key : String) (v : Json) : Option Entries :=
  let change (origin : TableOrigin) (inner : Entries) : Option Entries :=
    if decide (origin = .dotted) = path.isEmpty then none
    else if (inner.get? key).isSome then none
    else some (inner.set key (.value v))
  es.changeAt true change path .header

end Entries

mutual
def Node.toJson : Node → Json
  | .value v => v
  | .table _ es => .obj (entriesToMembers es)
  | .tables items => .arr (tablesToItems items)

def entriesToMembers : List (String × Node) → List (String × Json)
  | [] => []
  | (k, n) :: rest => (k, n.toJson) :: entriesToMembers rest

def tablesToItems : List (List (String × Node)) → List Json
  | [] => []
  | es :: rest => .obj (entriesToMembers es) :: tablesToItems rest
end

inductive Statement where
  | header (path : List String) (key : String)
  | arrayHeader (path : List String) (key : String)
  | entry (path : List String) (key : String) (value : Json)

structure Building where
  finished : Entries := []
  current : Entries := []
  place : Option (List String × String) := none
  inArray : Bool := false

namespace Building

def finish (b : Building) : Option Entries :=
  match b.place with
  | none => some b.current
  | some (path, key) =>
    let change (_ : TableOrigin) (es : Entries) : Option Entries :=
      if b.inArray then
        match es.get? key with
        | none => some (es.set key (.tables [b.current]))
        | some (.tables items) => some (es.set key (.tables (items ++ [b.current])))
        | some _ => none
      else some (es.set key (.table .header b.current))
    b.finished.changeAt false change path .header

-- A table made on the way keeps its entries when its own header comes.
def openTable (es : Entries) (path : List String) (key : String) : Option Building := do
  let mut entries : Entries := []
  let found ← (findTable es path)
  match found.get? key with
  | none => pure ()
  | some (.table .path inner) => entries := inner
  | some _ => none
  let finished ← es.changeAt false (fun _ inner => some (inner.remove key)) path .header
  some { finished, current := entries, place := some (path, key) }
where
  findTable (es : Entries) : List String → Option Entries
    | [] => some es
    | key :: rest =>
      match es.get? key with
      | none => some []
      | some (.value _) => none
      | some (.table _ inner) => findTable inner rest
      | some (.tables items) =>
        match items.getLast? with
        | none => none
        | some inner => findTable inner rest

def openArray (es : Entries) (path : List String) (key : String) : Option Building := do
  let change (_ : TableOrigin) (inner : Entries) : Option Entries :=
    match inner.get? key with
    | none => some (inner.set key (.tables []))
    | some (.tables _) => some inner
    | some _ => none
  let finished ← es.changeAt false change path .header
  some { finished, place := some (path, key), inArray := true }

def step (b : Building) : Statement → Option Building
  | .entry path key v => (b.current.addValue path key v).map fun current => { b with current }
  | .header path key => b.finish.bind (openTable · path key)
  | .arrayHeader path key => b.finish.bind (openArray · path key)

end Building

def build (statements : List Statement) : Option Json := do
  let b ← statements.foldlM Building.step {}
  let es ← b.finish
  some (.obj (entriesToMembers es))

end FleetOps.Toml
