import RecordLogic.Command.Arguments
import RecordLogic.Command.Error
import RecordLogic.Command.Workspace
import RecordLogic.Formula.Eval
import RecordLogic.Formula.Wire
import RecordLogic.Json.Printer
import RecordLogic.Request

namespace RecordLogic.Command

/-- How a command ends: what it prints, and the settings file that it writes. -/
structure Outcome where
  exit : Nat := 0
  output : String := ""
  errors : String := ""
  saved : Option (String × String) := none
deriving DecidableEq

/-- What a command has printed so far, and the settings file that it has written. -/
structure Report where
  output : String := ""
  errors : String := ""
  saved : Option (String × String) := none

/-- A command does one thing after another. When one of them fails, what was printed and written
before stays. -/
abbrev Procedure := ExceptT CommandError (StateM Report)

namespace Procedure

/-- Something that may fail, and that prints and writes nothing. -/
def attempt {α : Type} (x : Except CommandError α) : Procedure α := ExceptT.mk (pure x)

def print (s : String) : Procedure Unit := modify fun r => { r with output := r.output ++ s }

def warn (s : String) : Procedure Unit := modify fun r => { r with errors := r.errors ++ s }

def write (path text : String) : Procedure Unit :=
  modify fun r => { r with saved := some (path, text) }

/-- How a procedure ends, and what there is to show of it then. -/
def perform {α : Type} (x : Procedure α) (r : Report) : Except CommandError α × Report :=
  x.run.run r

end Procedure

open Procedure (attempt print warn write)

/-- How a command shows things. -/
structure Style where
  json : Bool
  quiet : Bool
  verbose : Bool
  color : Bool

namespace Style

def dimmed (st : Style) (s : String) : String :=
  if st.color then "\x1b[2m" ++ s ++ "\x1b[0m" else s

def warning (st : Style) (s : String) : String :=
  if st.color then "\x1b[33m" ++ s ++ "\x1b[39m" else s

def header (st : Style) (s : String) : String :=
  if st.color then "\x1b[1m\x1b[32m" ++ s ++ "\x1b[39m\x1b[0m" else s

end Style

/-- Lines of text, each with its end. -/
def lines (ls : List String) : String :=
  String.join (ls.map (· ++ "\n"))

def printJson (j : Json) : Procedure Unit :=
  print (lines [j.pretty])

/-- Arrays and objects that a file may nest. -/
def maxNesting : Nat := 127

/-- The text at a path. A dash stands for the input, which can be read once. -/
def readText (w : Workspace) (input : Place) (path : String) :
    Except CommandError (String × Place) :=
  match (if path = "-" then input else w.look path).read with
  | .ok text => .ok (text, if path = "-" then "" else input)
  | .error reason => .error (.file reason)

/-- The document at a path, and what is left of the input. -/
def readDocument {α : Type} (w : Workspace) (decode : Json.Decoder α) (input : Place)
    (path : String) : Except CommandError (α × Place) := do
  let (text, input) ← readText w input path
  match Json.read maxNesting text with
  | .error e => throw (.document (.notJson e))
  | .ok j =>
    match decode j with
    | .error e => throw (.document (.refused e))
    | .ok a => return (a, input)

/-- The document at a path that may not be given. -/
def readOptional {α : Type} (w : Workspace) (decode : Json.Decoder α) (input : Place)
    (default : α) : Option String → Except CommandError (α × Place)
  | some path => readDocument w decode input path
  | none => .ok (default, input)

def placeOfSettings (w : Workspace) : Except SettingsError String :=
  match w.settingsPath? with
  | some path => .ok path
  | none => .error .noPlace

/-- The settings in force. A file that is not there gives the defaults. -/
def loadSettings (w : Workspace) : Except SettingsError Settings := do
  let place := w.look (← placeOfSettings w)
  if !place.isThere then return {}
  match place.read with
  | .error reason => throw (.unreadable reason)
  | .ok text =>
    match Settings.read text with
    | .error e => throw (.malformed e)
    | .ok s => return s

/-- Checks that the directory of a path can be made and that a file can be put there. -/
def checkPlace (w : Workspace) (path : String) : Except SettingsError Unit := do
  match (Workspace.parent? path).map w.look with
  | some (.file _) | some (.unreadable _) => throw (.noDirectory Place.occupiedText)
  | some .blocked => throw (.noDirectory Place.blockedText)
  | _ => pure ()

def checkFile (path : String) : Except SettingsError Unit := do
  if path.isEmpty then throw (.unwritable Place.missingText)
  if path.endsWith "/" then throw (.unwritable Place.directoryText)

/-- A value as the terminal shows it: arrays and objects as documents, texts in quotes. -/
def shown (v : Value) : String :=
  match v with
  | .array _ | .object _ => v.toJson.compact
  | .text s => Text.quoted s
  | v => v.toText

def showValue (st : Style) (v : Value) : Procedure Unit := do
  if st.json then
    printJson (Json.ofFields [("result", some v.toJson), ("type", some (.text v.typeName))])
  else if !st.quiet then
    print (lines [shown v ++ " " ++ st.dimmed ("(" ++ v.typeName ++ ")")])

def runEval (w : Workspace) (st : Style) (r : EvalRequest) : Procedure Unit := do
  let settings ← attempt ((loadSettings w).mapError .settings)
  let (expr, input) ← attempt (readDocument w Formula.Expr.decode w.input r.expr)
  let (form, input) ← attempt (readOptional w Json.Decode.document input (.object []) r.values)
  let (user, _) ← attempt (readOptional w Value.decode input .undefined r.user)
  let ctx : Formula.Context :=
    ⟨Formula.Context.formOf form, Formula.SystemValues.capture w.zone w.now user⟩
  let options : Formula.Options :=
    { maxDepth := r.maxDepth.getD settings.options.maxDepth
      logicalMode := r.mode.getD settings.options.logicalMode }
  let ev : Formula.Evaluator := ⟨w.zone, Formula.Registry.builtin w.zone, options⟩
  let v ← attempt ((ev.eval ctx expr).outcome.mapError .evaluation)
  showValue st v

/-- The body to send: the filter alone or in a request. -/
def requestBody (t : Filter.Tree) : Option RequestKind → Json
  | none => (t.payload?.map (·.encode)).getD .null
  | some .list => t.listRequest.encode
  | some .count => t.countRequest.encode

/-- Numbers between brackets. -/
def numberList (ns : List Nat) : String :=
  "[" ++ String.intercalate ", " (ns.map toString) ++ "]"

/-- A request may ask for a filter without issues. -/
def FilterRequest.accept (r : FilterRequest) (issues : List Filter.Issue) :
    Except CommandError Unit :=
  if r.validate && !issues.isEmpty then .error (.script (.issues issues)) else .ok ()

def showReplay (st : Style) (r : FilterRequest) (replay : Filter.Replay) : Procedure Unit := do
  let issues := replay.tree.issues
  let body := requestBody replay.tree r.request
  if st.json then
    printJson <| Json.ofFields
      [("payload", some body), ("nodes", some (.integer replay.tree.size)),
        ("skipped_steps", some (.array (replay.skipped.map fun (n : Nat) => .integer n))),
        ("issues", some (.array (issues.map (.text <| issueText ·))))]
  else if !st.quiet then
    printJson body
    warn (lines (issues.map fun i => st.warning ("warning: " ++ issueText i)))
    if st.verbose && !replay.skipped.isEmpty then
      warn (lines ["skipped steps: " ++ numberList replay.skipped])

def runFilter (w : Workspace) (st : Style) (r : FilterRequest) : Procedure Unit := do
  let settings ← attempt ((loadSettings w).mapError .settings)
  let (script, _) ← attempt (readDocument w Filter.Script.decode w.input r.script)
  let replay ← attempt ((script.replay settings.root).mapError (.script ∘ .unknownRef))
  attempt (r.accept replay.tree.issues)
  showReplay st r replay

def runFunctions (w : Workspace) (st : Style) : Procedure Unit := do
  let names := (Formula.Registry.builtin w.zone).keys
  if st.json then printJson (.array (names.map .text))
  else if !st.quiet then print (lines names)

def showSettings (w : Workspace) (st : Style) (settings : Settings) (path : String) :
    Procedure Unit := do
  let isThere := (w.look path).isThere
  if st.json then
    printJson <| Json.ofFields
      [("path", some (.text path)), ("exists", some (.bool isThere)),
        ("config", some settings.toJson)]
  else if !st.quiet then
    let options := settings.options
    print <| lines
      [st.header "Configuration", "", "File: " ++ path, "Exists: " ++ toString isThere, "",
        "[evaluator]", "  max_depth: " ++ toString options.maxDepth,
        "  logical_mode: " ++ options.logicalMode.name, "",
        "[filter]", "  root_operator: " ++ settings.root.name, "",
        "[output]", "  color: " ++ toString (settings.color.getD true)]

def runShow (w : Workspace) (st : Style) : Procedure Unit := do
  let settings ← attempt ((loadSettings w).mapError .settings)
  let path ← attempt ((placeOfSettings w).mapError .settings)
  showSettings w st settings path

/-- The text of a settings file. -/
def textOfSettings (s : Settings) : Except SettingsError String :=
  match s.render? with
  | some text => .ok text
  | none => .error .doesNotFit

def saveSettings (w : Workspace) (s : Settings) : Procedure Unit := do
  let path ← attempt ((placeOfSettings w).mapError .settings)
  attempt ((checkPlace w path).mapError .settings)
  let text ← attempt ((textOfSettings s).mapError .settings)
  attempt ((checkFile path).mapError .settings)
  write path text

def showChange (st : Style) (key value path : String) : Procedure Unit := do
  if st.json then
    printJson <| Json.ofFields
      [("status", some (.text "success")), ("key", some (.text key)),
        ("value", some (.text value)), ("path", some (.text path))]
  else if !st.quiet then print (lines ["Set " ++ key ++ " = " ++ value])

def runChange (w : Workspace) (st : Style) (key value : String) : Procedure Unit := do
  let settings ← attempt ((loadSettings w).mapError .settings)
  let settings ← attempt ((settings.change key value).mapError (.settings ∘ .change))
  saveSettings w settings
  let path ← attempt ((placeOfSettings w).mapError .settings)
  showChange st key value path

def showPath (w : Workspace) (st : Style) (path : String) : Procedure Unit := do
  if st.json then
    printJson <| Json.ofFields
      [("path", some (.text path)), ("exists", some (.bool (w.look path).isThere))]
  else print (lines [path])

def runPath (w : Workspace) (st : Style) : Procedure Unit := do
  let path ← attempt ((placeOfSettings w).mapError .settings)
  showPath w st path

def greeting : List String := ["rk - recordkit CLI", "Use --help for usage information"]

def greet (st : Style) : Procedure Unit := do
  if !st.quiet then print (lines greeting)

def runTask (w : Workspace) (st : Style) : Task → Procedure Unit
  | .nothing => greet st
  | .eval r => runEval w st r
  | .filter r => runFilter w st r
  | .functions => runFunctions w st
  | .showSettings => runShow w st
  | .changeSetting key value => runChange w st key value
  | .settingsPath => runPath w st

/-- Output is coloured unless the command line, the environment or the settings say otherwise. -/
def styleOf (w : Workspace) (f : Flags) : Style :=
  let wanted := match loadSettings w with
    | .ok s => s.color.getD true
    | .error _ => true
  { json := f.json, quiet := f.quiet, verbose := f.verbose
    color := !f.noColor && !w.noColor && wanted }

/-- What a failing command prints. -/
def errorText (st : Style) (e : CommandError) : String :=
  if st.json then
    lines [(Json.ofFields [("error", some <| Json.ofFields
      [("code", some (.text e.code)), ("message", some (.text e.message))])]).pretty]
  else lines ["Error: " ++ e.message]

def Invocation.run (i : Invocation) (w : Workspace) : Outcome :=
  let st := styleOf w i.flags
  match (runTask w st i.task).perform {} with
  | (.ok (), r) => { output := r.output, errors := r.errors, saved := r.saved }
  | (.error e, r) =>
    { exit := e.exitCode, output := r.output, errors := r.errors ++ errorText st e
      saved := r.saved }

/-- The version of the program. -/
def version : String := "0.1.3"

/-- How a command line ends that is not carried out. The texts of help and of wrong usage are not
part of it. -/
def Stop.outcome : Stop → Outcome
  | usage => { exit := 2 }
  | help => {}
  | version command => { output := lines [command ++ " " ++ Command.version] }

/-- Carries out a command line. -/
def run (args : List String) (w : Workspace) : Outcome :=
  match parse args with
  | .ok i => i.run w
  | .error stop => stop.outcome

/-- The paths that a command line may read. -/
def Invocation.paths (i : Invocation) : List String :=
  match i.task with
  | .eval r => r.expr :: (r.values.toList ++ r.user.toList)
  | .filter r => [r.script]
  | _ => []

end RecordLogic.Command
