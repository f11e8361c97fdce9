import RecordLogic.Formula.Options
import RecordLogic.Number.Digits

namespace RecordLogic.Command

open Formula (LogicalMode)

inductive RequestKind where
  | list
  | count
deriving DecidableEq

namespace RequestKind

def ofName? : String → Option RequestKind
  | "list" => some list
  | "count" => some count
  | _ => none

end RequestKind

/-- The switches that every command takes. -/
structure Flags where
  verbose : Bool := false
  quiet : Bool := false
  json : Bool := false
  noColor : Bool := false
deriving DecidableEq

structure EvalRequest where
  expr : String
  values : Option String := none
  user : Option String := none
  mode : Option LogicalMode := none
  maxDepth : Option Nat := none
deriving DecidableEq

structure FilterRequest where
  script : String
  request : Option RequestKind := none
  validate : Bool := false
deriving DecidableEq

/-- What a command line asks for. -/
inductive Task where
  | nothing
  | eval (request : EvalRequest)
  | filter (request : FilterRequest)
  | functions
  | showSettings
  | changeSetting (key value : String)
  | settingsPath
deriving DecidableEq

structure Invocation where
  flags : Flags
  task : Task
deriving DecidableEq

/-- Why a command line is not carried out: it is wrong, or it asks about the program itself. -/
inductive Stop where
  | usage
  | help
  | version (command : String)
deriving DecidableEq

/-- What one command takes: switches and options with a value besides those that all take, and
arguments by position. A command with further commands takes none by position. Each value is
checked. -/
structure Level where
  name : String
  switches : List String := []
  options : List (String × (String → Bool)) := []
  positions : List (String → Bool) := []
  hasCommands : Bool := false

/-- What was given to one command. -/
structure Given where
  switches : List String := []
  options : List (String × String) := []
  positions : List String := []

namespace Given

def has (g : Given) (switch : String) : Bool :=
  g.switches.contains switch

def value? (g : Given) (option : String) : Option String :=
  g.options.lookup option

def position (g : Given) (i : Nat) : String :=
  g.positions.getD i ""

def flags (g : Given) : Flags :=
  ⟨g.has "verbose", g.has "quiet", g.has "json", g.has "no-color"⟩

end Given

/-- A switch counts wherever it is given. -/
def Flags.union (a b : Flags) : Flags :=
  ⟨a.verbose || b.verbose, a.quiet || b.quiet, a.json || b.json, a.noColor || b.noColor⟩

/-- The switch of a letter. -/
def shortSwitch? : Char → Option String
  | 'v' => some "verbose"
  | 'q' => some "quiet"
  | 'h' => some "help"
  | 'V' => some "version"
  | _ => none

namespace Level

def commonSwitches : List String := ["verbose", "quiet", "json", "no-color"]

/-- Takes a switch, which may be given once. -/
def takeSwitch (l : Level) (g : Given) (name : String) : Except Stop Given :=
  if name = "help" then .error .help
  else if name = "version" then .error (.version l.name)
  else if !(commonSwitches.contains name || l.switches.contains name) || g.has name then
    .error .usage
  else .ok { g with switches := name :: g.switches }

/-- Takes the switches of a row of letters. -/
def takeLetters (l : Level) (g : Given) : List Char → Except Stop Given
  | [] => .ok g
  | c :: cs =>
    match shortSwitch? c with
    | none => .error .usage
    | some name => do
      let g ← l.takeSwitch g name
      l.takeLetters g cs

/-- Takes the value of an option, which may be given once. -/
def takeValue (l : Level) (g : Given) (name value : String) : Except Stop Given :=
  match l.options.lookup name with
  | none => .error .usage
  | some isValid =>
    if (g.value? name).isSome || !isValid value then .error .usage
    else .ok { g with options := (name, value) :: g.options }

/-- Takes the next argument by position. -/
def takePosition (l : Level) (g : Given) (value : String) : Except Stop Given :=
  match l.positions[g.positions.length]? with
  | none => .error .usage
  | some isValid =>
    if isValid value then .ok { g with positions := g.positions ++ [value] } else .error .usage

/-- The value of an option does not look like an option; a single dash is a value. -/
def isValue (s : String) : Bool :=
  s = "-" || s.toList.head? ≠ some '-'

/-- Takes arguments up to the name of a further command. After two dashes all are taken by
position. -/
def scan (l : Level) (g : Given) : List String → Except Stop (Given × List String)
  | [] => .ok (g, [])
  | "--" :: rest => do
    let g ← rest.foldlM l.takePosition g
    return (g, [])
  | a :: rest =>
    match a.toList with
    | '-' :: '-' :: cs =>
      let name := String.ofList (cs.takeWhile (· ≠ '='))
      match cs.dropWhile (· ≠ '=') with
      | _ :: value => do
        let g ← l.takeValue g name (String.ofList value)
        l.scan g rest
      | [] =>
        if (l.options.lookup name).isSome then
          match rest with
          | value :: rest =>
            if isValue value then do
              let g ← l.takeValue g name value
              l.scan g rest
            else .error .usage
          | [] => .error .usage
        else do
          let g ← l.takeSwitch g name
          l.scan g rest
    | '-' :: c :: cs => do
      let g ← l.takeLetters g (c :: cs)
      l.scan g rest
    | _ =>
      if l.hasCommands then .ok (g, a :: rest)
      else do
        let g ← l.takePosition g a
        l.scan g rest

/-- Every argument by position is there, and output is not both verbose and quiet. -/
def complete (l : Level) (g : Given) : Except Stop Unit :=
  if g.positions.length < l.positions.length || g.has "verbose" && g.has "quiet" then .error .usage
  else .ok ()

/-- The arguments of a command without further commands. -/
def whole (l : Level) (args : List String) : Except Stop Given := do
  let (g, _) ← l.scan {} args
  l.complete g
  return g

end Level

def isPath (s : String) : Bool := !s.isEmpty

def anything (_ : String) : Bool := true

def topLevel : Level := { name := "rk", hasCommands := true }

def evalLevel : Level :=
  { name := "rk-eval"
    options :=
      [("values", isPath), ("user", isPath),
        ("mode", fun s => (LogicalMode.ofName? s).isSome),
        ("max-depth", fun s => (Number.readWord? 10 s.toList).isSome)]
    positions := [isPath] }

def filterLevel : Level :=
  { name := "rk-filter"
    switches := ["validate"]
    options := [("request", fun s => (RequestKind.ofName? s).isSome)]
    positions := [isPath] }

def functionsLevel : Level := { name := "rk-functions" }

def configLevel : Level := { name := "rk-config", hasCommands := true }

def showLevel : Level := { name := "rk-config-show" }

def setLevel : Level := { name := "rk-config-set", positions := [anything, anything] }

def pathLevel : Level := { name := "rk-config-path" }

def evalTask (g : Given) : Task :=
  .eval
    { expr := g.position 0
      values := g.value? "values"
      user := g.value? "user"
      mode := (g.value? "mode").bind LogicalMode.ofName?
      maxDepth := (g.value? "max-depth").bind fun s => Number.readWord? 10 s.toList }

def filterTask (g : Given) : Task :=
  .filter
    { script := g.position 0
      request := (g.value? "request").bind RequestKind.ofName?
      validate := g.has "validate" }

/-- The command of a level without further commands, with its switches. -/
def Level.invocation (l : Level) (task : Given → Task) (args : List String) :
    Except Stop Invocation := do
  let g ← l.whole args
  return ⟨g.flags, task g⟩

/-- A command and what follows it. -/
def configCommand : List String → Except Stop Invocation
  | [] => .ok ⟨{}, .showSettings⟩
  | "show" :: args => showLevel.invocation (fun _ => .showSettings) args
  | "set" :: args =>
    setLevel.invocation (fun g => .changeSetting (g.position 0) (g.position 1)) args
  | "path" :: args => pathLevel.invocation (fun _ => .settingsPath) args
  | "help" :: _ => .error .help
  | _ => .error .usage

/-- The arguments of a level and then those of a further command; the switches of both count. -/
def Level.around (l : Level) (command : List String → Except Stop Invocation)
    (args : List String) : Except Stop Invocation := do
  let (g, rest) ← l.scan {} args
  let i ← command rest
  l.complete g
  return { i with flags := g.flags.union i.flags }

def topCommand : List String → Except Stop Invocation
  | [] => .ok ⟨{}, .nothing⟩
  | "eval" :: args | "e" :: args => evalLevel.invocation evalTask args
  | "filter" :: args | "f" :: args => filterLevel.invocation filterTask args
  | "functions" :: args => functionsLevel.invocation (fun _ => .functions) args
  | "config" :: args => configLevel.around configCommand args
  | "help" :: _ => .error .help
  | _ => .error .usage

/-- Reads a command line. -/
def parse (args : List String) : Except Stop Invocation :=
  topLevel.around topCommand args

end RecordLogic.Command
