import RecordLogic.Settings.Basic
import RecordLogic.Toml.Reader

namespace RecordLogic.Settings

open Formula (LogicalMode)
open RecordLogic.Filter (GroupOperator)

/-- Why a text is no settings file. -/
inductive FileError where
  | notToml
  | badValue (key : String)
deriving DecidableEq

def FileError.message : FileError → String
  | notToml => "not a TOML document"
  | badValue key => "bad value of " ++ key

/-- The entries of a table, or the items of an array as the fields in order. -/
def fieldsOf (names : List String) : Toml → Option (List (String × Toml))
  | .table _ entries => some entries
  | .array items | .tables items =>
    if names.length ≤ items.length then some (names.zip items) else none
  | .date => some []
  | _ => none

/-- A whole number from 0 to `most`. -/
def natural? (most : Nat) : Toml → Option Nat
  | .integer n => if 0 ≤ n ∧ n ≤ most then some n.toNat else none
  | _ => none

def switchOf? : Toml → Option Bool
  | .bool b => some b
  | _ => none

def isEmpty : Toml → Bool
  | .table _ [] | .array [] | .tables [] => true
  | _ => false

/-- A name: a text, or the only key of a table over something empty. -/
def name? {α : Type} (ofName? : String → Option α) : Toml → Option α
  | .text s => ofName? s
  | .table _ [(s, v)] => if isEmpty v then ofName? s else none
  | _ => none

/-- A field that may be absent. -/
def field {α : Type} (entries : List (String × Toml)) (key : String) (read : Toml → Option α) :
    Except FileError (Option α) :=
  match entries.lookup key with
  | none => .ok none
  | some v =>
    match read v with
    | some a => .ok (some a)
    | none => .error (.badValue key)

/-- The fields of a section, none if it is absent. -/
def group (entries : List (String × Toml)) (key : String) (names : List String) :
    Except FileError (List (String × Toml)) := do
  return (← field entries key (fieldsOf names)).getD []

/-- The settings of a document. Its version is checked to be a number and has no other use; other
entries are ignored. -/
def ofToml (doc : Toml) : Except FileError Settings := do
  let top := (fieldsOf [] doc).getD []
  let _ ← field top "version" (natural? 4_294_967_295)
  let evaluator ← group top "evaluator" ["max_depth", "logical_mode"]
  let maxDepth ← field evaluator "max_depth" (natural? Number.maxWord)
  let logicalMode ← field evaluator "logical_mode" (name? LogicalMode.ofName?)
  let filter ← group top "filter" ["root_operator"]
  let rootOperator ← field filter "root_operator" (name? GroupOperator.ofName?)
  let output ← group top "output" ["color"]
  let color ← field output "color" switchOf?
  return ⟨maxDepth, logicalMode, rootOperator, color⟩

def read (s : String) : Except FileError Settings :=
  match Toml.read? s with
  | some doc => ofToml doc
  | none => .error .notToml

/-- The largest whole number of a TOML document. -/
def maxInteger : Nat := 9_223_372_036_854_775_807

/-- The line of an entry that has a value. -/
def line (key : String) : Option String → String
  | some value => key ++ " = " ++ value ++ "\n"
  | none => ""

def quote (s : String) : String := "\"" ++ s ++ "\""

/-- The text of a settings file, if its numbers fit. -/
def render? (s : Settings) : Option String :=
  if s.maxDepth.all (· ≤ maxInteger) then
    some <|
      line "version" (some (toString version)) ++
        "\n[evaluator]\n" ++ line "max_depth" (s.maxDepth.map toString) ++
        line "logical_mode" (s.logicalMode.map (quote ·.name)) ++
        "\n[filter]\n" ++ line "root_operator" (s.rootOperator.map (quote ·.name)) ++
        "\n[output]\n" ++ line "color" (s.color.map toString)
  else none

/-- The document of the settings. -/
def toJson (s : Settings) : Json :=
  Json.ofFields
    [("version", some (.integer version)),
      ("evaluator", some <| Json.ofFields
        [("max_depth", s.maxDepth.map (.integer ·)),
          ("logical_mode", s.logicalMode.map (.text ·.name))]),
      ("filter", some <| Json.ofFields [("root_operator", s.rootOperator.map (.text ·.name))]),
      ("output", some <| Json.ofFields [("color", s.color.map .bool)])]

end RecordLogic.Settings
