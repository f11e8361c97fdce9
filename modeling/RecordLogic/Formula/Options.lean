import RecordLogic.Json.Decode
import RecordLogic.Number.Digits

namespace RecordLogic.Formula

/-- How `AND` and `OR` treat their arguments: all of them are evaluated, or only those up to the one
that decides. -/
inductive LogicalMode where
  | eager
  | shortCircuit
deriving DecidableEq

namespace LogicalMode

def name : LogicalMode → String
  | eager => "eager"
  | shortCircuit => "short-circuit"

def ofName? (s : String) : Option LogicalMode :=
  [eager, shortCircuit].find? (·.name = s)

theorem ofName?_name (mode : LogicalMode) : ofName? mode.name = some mode := by
  cases mode <;> decide

/-- What to say of a name that no mode has. -/
def unknownMessage (s : String) : String :=
  "unknown logical mode '" ++ s ++ "' (expected eager or short-circuit)"

end LogicalMode

def defaultMaxDepth : Nat := 256

structure Options where
  maxDepth : Nat := defaultMaxDepth
  logicalMode : LogicalMode := .eager
deriving DecidableEq

namespace Options

def decode : Json.Decoder Options := fun j => do
  let r ← Json.record ⟨["max_depth", "logical_mode"], 0⟩ j
  let maxDepth ← r.defaulted "max_depth" defaultMaxDepth (Json.Decode.natural Number.maxWord)
  let logicalMode ← r.defaulted "logical_mode" .eager (Json.Decode.name LogicalMode.ofName?)
  return ⟨maxDepth, logicalMode⟩

def encode (o : Options) : Json :=
  Json.ofFields
    [("max_depth", some (.integer o.maxDepth)), ("logical_mode", some (.text o.logicalMode.name))]

end Options

end RecordLogic.Formula
