import RecordLogic.Filter.Issue
import RecordLogic.Filter.Script
import RecordLogic.Formula.Error
import RecordLogic.Json.Reader
import RecordLogic.Settings.File

namespace RecordLogic.Command

/-- The identity of a node as 32 hexadecimal digits. -/
def nodeText (i : Filter.NodeId) : String :=
  let ds := Nat.toDigits 16 i.number
  String.ofList (List.replicate (32 - ds.length) '0' ++ ds)

def issueText (issue : Filter.Issue) : String :=
  nodeText issue.node ++ ": " ++ issue.kind.message

/-- Why a script gives no filter. -/
inductive ScriptError where
  | unknownRef (e : Filter.UnknownRef)
  | issues (issues : List Filter.Issue)

def ScriptError.message : ScriptError → String
  | unknownRef e => e.message
  | issues list =>
    toString list.length ++ " validation issue(s): " ++
      String.intercalate "; " (list.map issueText)

/-- Why the settings cannot be read or changed. -/
inductive SettingsError where
  | noPlace
  | unreadable (reason : String)
  | malformed (e : Settings.FileError)
  | change (e : Settings.ChangeError)
  | noDirectory (reason : String)
  | doesNotFit
  | unwritable (reason : String)

def SettingsError.message : SettingsError → String
  | noPlace => "Could not determine config directory"
  | unreadable reason => "Failed to read config: " ++ reason
  | malformed e => "Failed to parse config: " ++ e.message
  | change e => e.message
  | noDirectory reason => "Failed to create config directory: " ++ reason
  | doesNotFit => "Failed to serialize config: out-of-range value for u64 type"
  | unwritable reason => "Failed to write config: " ++ reason

/-- Why a document is not understood. -/
inductive DocumentError where
  | notJson (e : Json.SyntaxError)
  | refused (e : Json.DecodeError)

def DocumentError.message : DocumentError → String
  | notJson e => e.message
  | refused e => e.message

/-- Why a command fails. -/
inductive CommandError where
  | evaluation (e : Formula.EvalError)
  | script (e : ScriptError)
  | settings (e : SettingsError)
  | file (reason : String)
  | document (e : DocumentError)

namespace CommandError

def code : CommandError → String
  | evaluation _ => "EVALUATION_ERROR"
  | script _ => "SCRIPT_ERROR"
  | settings _ => "CONFIG_ERROR"
  | file _ => "IO_ERROR"
  | document _ => "JSON_ERROR"

def exitCode : CommandError → Nat
  | evaluation _ | script _ | document _ => 1
  | file _ => 3
  | settings _ => 5

def message : CommandError → String
  | evaluation e => "evaluation error: " ++ e.message
  | script e => "filter script error: " ++ e.message
  | settings e => "configuration error: " ++ e.message
  | file reason => "I/O error: " ++ reason
  | document e => "serialization error: " ++ e.message

end CommandError

end RecordLogic.Command
