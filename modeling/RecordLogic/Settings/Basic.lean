import RecordLogic.Filter.Operator
import RecordLogic.Formula.Options
import RecordLogic.Text.Casing

namespace RecordLogic

open Formula (LogicalMode)
open RecordLogic.Filter (GroupOperator)

/-- What a user has chosen; what is absent has a default. -/
structure Settings where
  maxDepth : Option Nat := none
  logicalMode : Option LogicalMode := none
  rootOperator : Option GroupOperator := none
  color : Option Bool := none
deriving DecidableEq

namespace Settings

/-- The options of an evaluation. -/
def options (s : Settings) : Formula.Options :=
  ⟨s.maxDepth.getD Formula.defaultMaxDepth, s.logicalMode.getD .eager⟩

/-- The operator of the root of a script that gives none. -/
def root (s : Settings) : GroupOperator :=
  s.rootOperator.getD .and

/-- The four settings that can be changed. -/
inductive Key where
  | maxDepth
  | logicalMode
  | rootOperator
  | color
deriving DecidableEq

namespace Key

def all : List Key := [maxDepth, logicalMode, rootOperator, color]

def name : Key → String
  | maxDepth => "evaluator.max_depth"
  | logicalMode => "evaluator.logical_mode"
  | rootOperator => "filter.root_operator"
  | color => "output.color"

def ofName? (s : String) : Option Key :=
  all.find? (·.name = s)

end Key

/-- Why a setting is not changed. -/
inductive ChangeError where
  | unknownKey (key : String)
  | invalidDepth (value : String)
  | unknownMode (value : String)
  | invalidOperator (value : String)
  | invalidSwitch (value : String)
deriving DecidableEq

def ChangeError.message : ChangeError → String
  | unknownKey key =>
    "Unknown config key '" ++ key ++ "'. Valid keys: " ++
      String.intercalate ", " (Key.all.map Key.name)
  | invalidDepth value => "Invalid max_depth '" ++ value ++ "'. Use a positive integer"
  | unknownMode value => LogicalMode.unknownMessage value
  | invalidOperator value =>
    "Invalid root_operator value '" ++ value ++ "'. Valid values: and, or"
  | invalidSwitch value =>
    "Invalid boolean value '" ++ value ++ "'. Use true/false, yes/no, 1/0, or on/off"

/-- A positive number. -/
def depth? (value : String) : Option Nat :=
  (Number.readWord? 10 value.toList).filter (0 < ·)

/-- `and` or `or` in any case; a negation of all is no use at the root. -/
def operator? (value : String) : Option GroupOperator :=
  match Text.lower value with
  | "and" => some .and
  | "or" => some .or
  | _ => none

/-- On or off, in any case. -/
def switch? (value : String) : Option Bool :=
  match Text.lower value with
  | "true" | "yes" | "1" | "on" => some true
  | "false" | "no" | "0" | "off" => some false
  | _ => none

/-- Changes one setting. -/
def change (s : Settings) (key value : String) : Except ChangeError Settings :=
  match Key.ofName? key with
  | none => .error (.unknownKey key)
  | some .maxDepth =>
    match depth? value with
    | some n => .ok { s with maxDepth := some n }
    | none => .error (.invalidDepth value)
  | some .logicalMode =>
    match LogicalMode.ofName? value with
    | some mode => .ok { s with logicalMode := some mode }
    | none => .error (.unknownMode value)
  | some .rootOperator =>
    match operator? value with
    | some op => .ok { s with rootOperator := some op }
    | none => .error (.invalidOperator value)
  | some .color =>
    match switch? value with
    | some b => .ok { s with color := some b }
    | none => .error (.invalidSwitch value)

/-- The version that every settings file has. -/
def version : Nat := 1

end Settings

end RecordLogic
