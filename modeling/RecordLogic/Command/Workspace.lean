import RecordLogic.Table
import RecordLogic.Time.Zone

namespace RecordLogic.Command

/-- What stands at a path or on the input: a file with a text, one that cannot be read as text, a
directory, nothing, or nothing because a part of the path is a file. -/
inductive Place where
  | file (text : String)
  | unreadable (reason : String)
  | directory
  | missing
  | blocked
deriving DecidableEq

instance : Coe String Place := ⟨.file⟩

namespace Place

def isThere : Place → Bool
  | file _ | unreadable _ | directory => true
  | missing | blocked => false

def missingText : String := "No such file or directory (os error 2)"

def directoryText : String := "Is a directory (os error 21)"

def blockedText : String := "Not a directory (os error 20)"

def occupiedText : String := "File exists (os error 17)"

/-- The text of a file, or why there is none. -/
def read : Place → Except String String
  | file text => .ok text
  | unreadable reason => .error reason
  | directory => .error directoryText
  | missing => .error missingText
  | blocked => .error blockedText

end Place

/-- What a command sees of the world. -/
structure Workspace where
  look : String → Place
  input : Place
  environment : Table String
  zone : Time.Zone
  now : Time.Instant

namespace Workspace

/-- A path and a name below it. -/
def join (path name : String) : String :=
  if path.isEmpty || path.endsWith "/" then path ++ name else path ++ "/" ++ name

/-- Where the settings are: where the environment says, else in the user's directory of settings. -/
def settingsPath? (w : Workspace) : Option String :=
  match w.environment.find? "RK_CONFIG" with
  | some path => some path
  | none =>
    match w.environment.find? "XDG_CONFIG_HOME" with
    | some base => some (join (join base "rk") "config.toml")
    | none =>
      ((w.environment.find? "HOME").filter (· ≠ "")).map fun home =>
        join (join (join home ".config") "rk") "config.toml"

/-- The environment asks for output without colours. -/
def noColor (w : Workspace) : Bool :=
  (w.environment.find? "NO_COLOR").isSome

/-- The path without its last name; a path of one name lies in the current directory, and no path
lies nowhere. -/
def parent? (path : String) : Option String :=
  let cs := path.toList.reverse.dropWhile (· = '/')
  if cs.isEmpty then none
  else
    let above := (cs.dropWhile (· ≠ '/')).dropWhile (· = '/')
    some (String.ofList above.reverse)

end Workspace

end RecordLogic.Command
