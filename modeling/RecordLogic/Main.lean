import RecordLogic.Command.Run
import Std.Time.DateTime.Timestamp

namespace RecordLogic.Command

/-- What comes of reading bytes for a text. -/
def placeOf (read : IO ByteArray) : IO Place := do
  try
    match String.fromUTF8? (← read) with
    | some text => return .file text
    | none => return .unreadable "stream did not contain valid UTF-8"
  catch
    | .noFileOrDirectory .. => return .missing
    | .inappropriateType _ code _ => return if code = 21 then .directory else .blocked
    | e => return .unreadable (toString e)

/-- What stands at a path of the file system. -/
def placeAt (path : String) : IO Place :=
  if path.isEmpty then return .missing else placeOf (IO.FS.readBinFile path)

partial def readAll (input : IO.FS.Stream) (acc : ByteArray) : IO ByteArray := do
  let bytes ← input.read 65536
  if bytes.isEmpty then return acc else readAll input (acc ++ bytes)

/-- The variables that a command looks at. -/
def variableNames : List String := ["RK_CONFIG", "XDG_CONFIG_HOME", "HOME", "NO_COLOR"]

def environment : IO (Table String) := do
  let found ← variableNames.filterMapM fun name => do
    return (← IO.getEnv name).map (name, ·)
  return Table.ofList found

/-- Local time as the variable `TZ` or else the system gives it, universal time if neither does. A
zone cannot hold what the system says, or the name of a time zone. -/
def localZone : IO (Except String Time.Zone) := do
  match ← IO.getEnv "TZ" with
  | some rule =>
    match Time.Zone.Posix.read? rule with
    | some zone => return .ok zone
    | none => return .error ("the time zone is not understood: " ++ rule)
  | none =>
    if (← placeAt "/etc/localtime").isThere then
      return .error "the time zone of the system is not understood; set TZ to a rule"
    else return .ok .utc

/-- A command looks at local time. -/
def Task.usesLocalTime : Task → Bool
  | .eval _ => true
  | _ => false

def clock : IO Time.Instant := do
  let n := (← Std.Time.Timestamp.now).toNanosecondsSinceUnixEpoch.val
  return Time.Instant.ofParts (n / 1_000_000_000) (n % 1_000_000_000).toNat false

/-- Looks at the places that a command line may read or write. -/
def workspaceFor (i : Invocation) (zone : Time.Zone) : IO Workspace := do
  let mut w : Workspace :=
    { look := fun _ => .missing
      input := ""
      environment := ← environment
      zone
      now := ← clock }
  if i.paths.contains "-" then
    w := { w with input := ← placeOf (do readAll (← IO.getStdin) .empty) }
  let settings := w.settingsPath?.toList
  let mut places : List (String × Place) := []
  for path in i.paths ++ settings ++ settings.filterMap Workspace.parent? do
    places := (path, ← placeAt path) :: places
  return { w with look := fun path => (places.lookup path).getD .missing }

/-- Writes a file and the directories that it needs. -/
def save (path text : String) : IO Unit := do
  match Workspace.parent? path with
  | some directory => unless directory.isEmpty do IO.FS.createDirAll directory
  | none => pure ()
  IO.FS.writeFile path text

/-- Does what an outcome says. Nothing is printed if a file cannot be written. -/
def Outcome.perform (o : Outcome) : IO UInt32 := do
  match o.saved with
  | some (path, text) =>
    try save path text
    catch e =>
      let error := CommandError.settings (.unwritable (toString e))
      IO.eprintln ("Error: " ++ error.message)
      return UInt32.ofNat error.exitCode
  | none => pure ()
  IO.print o.output
  IO.eprint o.errors
  return UInt32.ofNat o.exit

def helpText : List String :=
  ["rk - inspect filters and formulas from the terminal", "",
    "Usage: rk [OPTIONS] [COMMAND]", "",
    "Commands:",
    "  eval <EXPR> [--values FILE] [--user FILE] [--mode MODE] [--max-depth N]",
    "  filter <SCRIPT> [--request list|count] [--validate]",
    "  functions",
    "  config [show | set <KEY> <VALUE> | path]", "",
    "Options:",
    "  -v, --verbose    -q, --quiet    --json    --no-color    -h, --help    -V, --version"]

/-- Says what a command line that is not carried out has no output for. -/
def Stop.explain : Stop → IO Unit
  | usage => IO.eprint (lines ["error: invalid arguments; try --help"])
  | help => IO.print (lines helpText)
  | version _ => pure ()

/-- Carries out what a command line asks for. -/
def Invocation.perform (i : Invocation) : IO UInt32 := do
  match ← if i.task.usesLocalTime then localZone else pure (.ok .utc) with
  | .error reason =>
    IO.eprintln ("Error: " ++ reason)
    return 2
  | .ok zone => (i.run (← workspaceFor i zone)).perform

end RecordLogic.Command

open RecordLogic Command

def main (args : List String) : IO UInt32 := do
  match parse args with
  | .error stop => do
    stop.explain
    stop.outcome.perform
  | .ok i => i.perform
