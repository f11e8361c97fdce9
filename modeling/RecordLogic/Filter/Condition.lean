import RecordLogic.Filter.Operator
import RecordLogic.Json.Decode

namespace RecordLogic.Filter

/-- A comparison of one field with a value. -/
structure Condition where
  operator : ConditionOperator
  field : String
  value : Option Json := none
  source : ValueSource := .constant
deriving BEq

namespace Condition

/-- Compares with a constant. -/
def withValue (c : Condition) (value : Json) : Condition :=
  { c with value := some value }

/-- Compares with another field. -/
def withField (c : Condition) (field : String) : Condition :=
  { c with value := some (.text field), source := .field }

/-- Compares with a variable of the environment. -/
def withVariable (c : Condition) (name : String) : Condition :=
  { c with value := some (.text name), source := .environment }

/-- The condition as it is sent: without a value that nothing looks at. -/
def sent (c : Condition) : Condition :=
  if c.operator.takesValue then c else { c with value := none }

/-- The names of the four fields in a document, which may be kept until the kind of the record
around it is known. -/
structure FieldNames where
  operator : String
  field : String
  value : String
  source : String
  kept : Bool := false

/-- The names in an edit. -/
def draftNames : FieldNames :=
  { operator := "operator", field := "lhs_field", value := "rhs_value", source := "rhs_type" }

/-- The names in an edit of a script. -/
def stepNames : FieldNames :=
  { draftNames with kept := true }

/-- The names in a filter that is sent. -/
def wireNames : FieldNames :=
  { operator := "Operator", field := "LHSField", value := "RHSValue", source := "RHSType" }

namespace FieldNames

/-- Reads an operator or what the value stands for. -/
def decodeName {α : Type} (n : FieldNames) (ofName? : String → Option α) : Json.Decoder α :=
  match n.kept with
  | true => Json.Decode.keptName ofName?
  | false => Json.Decode.name ofName?

@[simp] theorem decodeName_wireNames {α : Type} (ofName? : String → Option α) :
    wireNames.decodeName ofName? = Json.Decode.name ofName? :=
  rfl

def toFields (n : FieldNames) (least : Nat) : Json.Fields :=
  ⟨[n.operator, n.field, n.value, n.source], least⟩

end FieldNames

/-- A condition needs an operator and a field; a null value is none. -/
def decode (n : FieldNames) : Json.Decoder Condition := fun j => do
  let r ← Json.record (n.toFields 2) j
  let operator ← r.required n.operator (n.decodeName ConditionOperator.ofName?)
  let field ← r.required n.field Json.Decode.text
  let value ← r.optional n.value Json.Decode.document
  let source ← r.defaulted n.source .constant (n.decodeName ValueSource.ofName?)
  return ⟨operator, field, value, source⟩

def encode (n : FieldNames) (c : Condition) : Json :=
  Json.ofFields
    [(n.operator, some (.text c.operator.name)), (n.field, some (.text c.field)),
      (n.value, c.value), (n.source, some (.text c.source.name))]

end Condition

/-- A change of a condition; what is absent stays as it is. -/
structure ConditionUpdate where
  operator : Option ConditionOperator := none
  field : Option String := none
  value : Option Json := none
  source : Option ValueSource := none

def Condition.updated (c : Condition) (u : ConditionUpdate) : Condition :=
  { operator := u.operator.getD c.operator
    field := u.field.getD c.field
    value := u.value.or c.value
    source := u.source.getD c.source }

namespace ConditionUpdate

open Condition (FieldNames draftNames)

def decodeAs (n : FieldNames) : Json.Decoder ConditionUpdate := fun j => do
  let r ← Json.record (n.toFields 0) j
  let operator ← r.optional n.operator (n.decodeName ConditionOperator.ofName?)
  let field ← r.optional n.field Json.Decode.text
  let value ← r.optional n.value Json.Decode.document
  let source ← r.optional n.source (n.decodeName ValueSource.ofName?)
  return ⟨operator, field, value, source⟩

def decode : Json.Decoder ConditionUpdate := decodeAs draftNames

def encode (u : ConditionUpdate) : Json :=
  let n := draftNames
  Json.ofFields
    [(n.operator, u.operator.map (.text ·.name)), (n.field, u.field.map .text),
      (n.value, u.value), (n.source, u.source.map (.text ·.name))]

end ConditionUpdate

end RecordLogic.Filter
