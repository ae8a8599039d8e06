import FleetOps.Console.Response
import Std.Time.DateTime.Timestamp

set_option autoImplicit false

namespace FleetOps.Console

def contentAt? (path : String) : IO (Option ByteArray) := do
  try
    return some (← IO.FS.readBinFile path)
  catch _ =>
    return none

def listName : String :=
  "names"

def readPlace (path : String) : IO Place := do
  match (← contentAt? (pathIn path listName)).bind String.fromUTF8? with
  | none => return .missing
  | some list =>
    let names := (list.splitOn "\n").filter (!·.isEmpty)
    names.foldlM (fun place name => do
      match ← contentAt? (pathIn path name) with
      | some content => return place.put name (.file content)
      | none => return place) (.folder .empty)

def writeFolder (path : String) (before after : Folder) : IO Unit := do
  IO.FS.createDirAll path
  for (name, entry) in after.entries do
    match entry with
    | .file content => IO.FS.writeBinFile (pathIn path name) content
    | .folder => pure ()
  for name in before.names do
    if (after.find? name).isNone then IO.FS.removeFile (pathIn path name)
  IO.FS.writeFile (pathIn path listName) ("\n".intercalate after.names)

def writeStore (before : Place) (store : Option Store) : IO Unit := do
  match store with
  | some (.files f) =>
    match before.folder?, f.place.folder? with
    | .ok old, .ok new => writeFolder f.path old new
    | .error _, .ok new => writeFolder f.path .empty new
    | _, .error _ => pure ()
  | _ => pure ()

def readClock : IO Clock := do
  let now ← Std.Time.Timestamp.now
  let nanos := now.toNanosecondsSinceUnixEpoch.val
  return { now := { seconds := Int.fdiv nanos 1000000000, nanos := (Int.fmod nanos 1000000000).toNat } }

def readVariables (content : Option ByteArray) : IO Variables := do
  let text := (content.bind String.fromUTF8?).getD ""
  let names := (Expansion.references 0 text.toList).map String.ofList
  let values ← names.mapM fun name => do
    return (← IO.getEnv name).map (name, ·)
  return values.filterMap id

end FleetOps.Console

open FleetOps FleetOps.Console in
def main (arguments : List String) : IO UInt32 := do
  let settingsPath := (← IO.getEnv "HARBORMASTER_CONFIG").getD defaultSettingsPath
  let given := (readCommandLine arguments).toOption.bind (·.settings)
  let path := given.getD settingsPath
  let content ← contentAt? path
  let bindings ← readVariables content
  let world : World :=
    { home := (← IO.getEnv "HOME").getD "/", clock := ← readClock, place := fun _ => .missing,
      bindings, settingsPath, file := fun _ => content }
  let settings := (Settings.loadOrDefault bindings path content).toOption.getD {}
  let executions := pathIn (settings.dataFolder world.toSurroundings) "executions"
  let place ← readPlace executions
  let response := respond { world with place := fun _ => place } arguments
  IO.print response.output
  if let some e := response.error then IO.eprintln ("Error: " ++ e.failure.report)
  writeStore place response.store
  return response.status.toUInt32
