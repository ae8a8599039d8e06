import FleetOps.Schedule.Error

set_option autoImplicit false

namespace FleetOps

inductive FolderEntry where
  | file (content : ByteArray)
  | folder

structure Folder where
  entries : List (String × FolderEntry) := []

/-- The entries of a folder in the order that a reader happens to find them. -/
abbrev Listing := Folder → List (String × FolderEntry)

namespace Folder

def empty : Folder :=
  {}

def names (f : Folder) : List String :=
  f.entries.map (·.1)

def find? (f : Folder) (name : String) : Option FolderEntry :=
  (f.entries.find? (·.1 = name)).map (·.2)

def insertByName (name : String) (e : FolderEntry) :
    List (String × FolderEntry) → List (String × FolderEntry)
  | [] => [(name, e)]
  | (n, d) :: rest =>
    if name < n then (name, e) :: (n, d) :: rest
    else if name = n then (name, e) :: rest
    else (n, d) :: insertByName name e rest

def insert (f : Folder) (name : String) (e : FolderEntry) : Folder :=
  ⟨insertByName name e f.entries⟩

def erase (f : Folder) (name : String) : Folder :=
  ⟨f.entries.filter (·.1 ≠ name)⟩

def write (f : Folder) (name : String) (content : ByteArray) : Except IoError Folder :=
  match f.find? name with
  | some .folder => .error .isADirectory
  | _ => .ok (f.insert name (.file content))

def rename (f : Folder) (source target : String) : Except IoError Folder :=
  match f.find? source, f.find? target with
  | none, _ => .error .notFound
  | some (.file _), some .folder => .error .isADirectory
  | some e, _ => .ok ((f.erase source).insert target e)

def removeFile (f : Folder) (name : String) : Except IoError Folder :=
  match f.find? name with
  | none => .error .notFound
  | some .folder => .error .isADirectory
  | some (.file _) => .ok (f.erase name)

end Folder

def FolderEntry.text : FolderEntry → Except IoError String
  | .folder => .error .isADirectory
  | .file content =>
    match String.fromUTF8? content with
    | some text => .ok text
    | none => .error .notUtf8

inductive Place where
  | missing
  | file
  | folder (f : Folder)

namespace Place

def folder? : Place → Except IoError Folder
  | .folder f => .ok f
  | .missing => .error .notFound
  | .file => .error .notADirectory

def names : Place → List String
  | .folder f => f.names
  | _ => []

def find? : Place → String → Option FolderEntry
  | .folder f, name => f.find? name
  | _, _ => none

def put (p : Place) (name : String) (e : FolderEntry) : Place :=
  match p with
  | .folder f => .folder (f.insert name e)
  | _ => .folder (Folder.empty.insert name e)

def erase (p : Place) (name : String) : Place :=
  match p with
  | .folder f => .folder (f.erase name)
  | _ => p

end Place

end FleetOps
