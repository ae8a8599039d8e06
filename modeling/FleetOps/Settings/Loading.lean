import FleetOps.Schedule.Error
import FleetOps.Settings.Schema
import FleetOps.Toml.Reader

set_option autoImplicit false

namespace FleetOps

abbrev Variables := List (String × String)

def Variables.value? (vs : Variables) (name : String) : Option String :=
  if name.contains '=' then none else (vs.find? (·.1 = name)).map (·.2)

inductive LoadError where
  | notFound (path : String)
  | variableNotSet (name : String)
  | io (cause : IoError)
  | toml
deriving DecidableEq, Repr

def LoadError.message : LoadError → String
  | .notFound path => "Config file not found: " ++ path
  | .variableNotSet name => "Environment variable not set: " ++ name
  | .io cause => cause.report
  | .toml => "TOML parse error: <toml>"

namespace Expansion

-- A dollar sign, and a name without a closing brace between braces.
def reference? : List Char → Option (List Char)
  | '$' :: '{' :: rest =>
    let name := rest.takeWhile (· ≠ '}')
    if name.isEmpty ∨ name.length = rest.length then none else some name
  | _ => none

-- The names of the references in order; `skip` characters belong to the one found last.
def references : Nat → List Char → List (List Char)
  | _, [] => []
  | skip + 1, _ :: cs => references skip cs
  | 0, c :: cs =>
    match reference? (c :: cs) with
    | some name => name :: references (name.length + 2) cs
    | none => references 0 cs

def written (name : List Char) : List Char :=
  '$' :: '{' :: name ++ ['}']

-- Replaces each occurrence, from the left; `skip` characters belong to the one replaced last.
def replaceAll (old new : List Char) : Nat → List Char → List Char
  | _, [] => []
  | skip + 1, _ :: cs => replaceAll old new skip cs
  | 0, c :: cs =>
    if old.isPrefixOf (c :: cs) then new ++ replaceAll old new (old.length - 1) cs
    else c :: replaceAll old new 0 cs

def replaceReference (vs : Variables) (text name : List Char) : Except LoadError (List Char) :=
  match vs.value? (String.ofList name) with
  | some value => .ok (replaceAll (written name) value.toList 0 text)
  | none => .error (.variableNotSet (String.ofList name))

/-- The text with its references replaced one after the other. -/
def expand (vs : Variables) (text : String) : Except LoadError String := do
  let cs := text.toList
  let expanded ← (references 0 cs).foldlM (replaceReference vs) cs
  return String.ofList expanded

end Expansion

def Settings.ofText (vs : Variables) (text : String) : Except LoadError Settings := do
  let expanded ← Expansion.expand vs text
  match (Toml.read? expanded).bind Settings.ofJson? with
  | some s => .ok s
  | none => .error .toml

def Settings.load (vs : Variables) (path : String) (file : Option ByteArray) :
    Except LoadError Settings :=
  match file with
  | none => .error (.notFound path)
  | some bytes =>
    match String.fromUTF8? bytes with
    | some text => Settings.ofText vs text
    | none => .error (.io .notUtf8)

def Settings.loadOrDefault (vs : Variables) (path : String) (file : Option ByteArray) :
    Except LoadError Settings :=
  match Settings.load vs path file with
  | .error (.notFound _) => .ok {}
  | loaded => loaded

-- A leading `~` names the home directory, alone or before a slash.
def expandPath (home path : String) : String :=
  match path.toList with
  | ['~'] => home
  | '~' :: '/' :: rest => home ++ String.ofList ('/' :: rest)
  | _ => path

end FleetOps
