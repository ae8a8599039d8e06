import FleetOps.Json.Printer
import FleetOps.Json.Reader
import FleetOps.Store.Folder
import FleetOps.Store.Memory

set_option autoImplicit false

/-!
Execution records as files, one a record, named by its id with twenty digits. A record is written to a
side file and moved into place. The last id is recovered from the names when the store is opened, so
that an id that stands in a name is not given again.
-/

namespace FleetOps

def stemOf (extension : List Char) (name : String) : Option String :=
  let cs := name.toList
  let rest := cs.reverse
  let tail := rest.takeWhile (· ≠ '.')
  let stem := (rest.drop (tail.length + 1)).reverse
  if tail.reverse = extension ∧ tail.length < cs.length ∧ stem ≠ [] then some (String.ofList stem)
  else none

-- The number in the name of a record file: any numeral will do, padded or not.
def numberOfName (name : String) : Option ExecutionId :=
  (stemOf "json".toList name).bind fun stem => (Text.readNumeral Text.idBound stem).toOption

def recordName (id : ExecutionId) : String :=
  Text.padded 20 id ++ ".json"

def sideName (id : ExecutionId) : String :=
  recordName id ++ ".tmp"

def ExecutionRecord.content (r : ExecutionRecord) : ByteArray :=
  r.toJson.pretty.toUTF8

def FolderEntry.record (e : FolderEntry) : Except SchedulerError ExecutionRecord :=
  match e.text with
  | .error cause => .error (.io cause)
  | .ok text =>
    match (Json.read? text).bind ExecutionRecord.ofJson? with
    | some r => .ok r
    | none => .error .unreadable

def recordsIn (listing : List (String × FolderEntry)) : List ExecutionRecord :=
  listing.filterMap fun (name, e) =>
    if (numberOfName name).isSome then e.record.toOption else none

def highestNumber (names : List String) : ExecutionId :=
  (names.filterMap numberOfName).foldl max 0

structure FileStore where
  path : String
  place : Place
  lastId : ExecutionId

namespace FileStore

-- Opens the store in what stands at `path`; a missing folder is made.
def openAt (path : String) (place : Place) : Except SchedulerError FileStore :=
  match place with
  | .missing => .ok { path, place := .folder .empty, lastId := 0 }
  | .folder f => .ok { path, place := .folder f, lastId := highestNumber f.names }
  | .file => .error (.store ("Failed to create " ++ path ++ ": " ++ IoError.alreadyExists.message))

def liftIo {α : Type} : Except IoError α → Except SchedulerError α
  | .ok a => .ok a
  | .error cause => .error (.io cause)

-- A side file that cannot be moved into place stays behind.
def write (f : FileStore) (r : ExecutionRecord) : Except SchedulerError Unit × FileStore :=
  match f.place.folder?.bind (·.write (sideName r.id) r.content) with
  | .error cause =>
    (.error (.store ("Failed to write execution #" ++ toString r.id ++ ": " ++ cause.message)), f)
  | .ok written =>
    match written.rename (sideName r.id) (recordName r.id) with
    | .error cause => (.error (.io cause), { f with place := .folder written })
    | .ok moved => (.ok (), { f with place := .folder moved })

def create (f : FileStore) (new : NewExecution) (now : Instant) :
    Except SchedulerError ExecutionRecord × FileStore :=
  let r := ExecutionRecord.queued (f.lastId + 1) new now
  match f.write r with
  | (.error e, f) => (.error e, f)
  | (.ok (), f) => (.ok r, { f with lastId := r.id })

-- The entry of a record; a missing folder holds none.
def entry? (f : FileStore) (id : ExecutionId) : Except SchedulerError (Option FolderEntry) :=
  match f.place with
  | .folder folder => .ok (folder.find? (recordName id))
  | .missing => .ok none
  | .file => .error (.io .notADirectory)

def find? (f : FileStore) (id : ExecutionId) : Except SchedulerError (Option ExecutionRecord) := do
  match ← f.entry? id with
  | none => return none
  | some e => return some (← e.record)

def update (f : FileStore) (r : ExecutionRecord) : Except SchedulerError Unit × FileStore :=
  match f.find? r.id with
  | .error e => (.error e, f)
  | .ok none => (.error (.executionNotFound r.id), f)
  | .ok (some stored) =>
    match stored.checkReplacement r with
    | .error e => (.error e, f)
    | .ok () => f.write r

def records (f : FileStore) (listing : Listing) : Except SchedulerError (List ExecutionRecord) :=
  liftIo (f.place.folder?.map fun folder => recordsIn (listing folder))

def query (f : FileStore) (listing : Listing) (q : ExecutionQuery) : Except SchedulerError ExecutionPage :=
  (f.records listing).map q.apply

-- Each record leaves under its own id, whatever file it was read from.
def removeEach (folder : Folder) : List ExecutionRecord → Except IoError Unit × Folder
  | [] => (.ok (), folder)
  | r :: rest =>
    match folder.removeFile (recordName r.id) with
    | .error cause => (.error cause, folder)
    | .ok folder => removeEach folder rest

def prune (f : FileStore) (listing : Listing) (cutoff : Instant) : Except SchedulerError Nat × FileStore :=
  match f.place.folder? with
  | .error cause => (.error (.io cause), f)
  | .ok folder =>
    let old := (recordsIn (listing folder)).filter (·.finishedBefore cutoff)
    match removeEach folder old with
    | (.ok (), folder) => (.ok old.length, { f with place := .folder folder })
    | (.error cause, folder) => (.error (.io cause), { f with place := .folder folder })

end FileStore

end FleetOps
