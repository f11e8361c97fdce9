import RecordLogic.Filter.Payload

namespace RecordLogic.Filter

open Json (Decoder DecodeError Fields Record)

namespace Payload

def fields : Fields := ⟨["Operator", "Condition"], 1⟩

/-- A group from its record and its clauses. -/
def ofRecord (r : Except DecodeError Record) (clauses : Except DecodeError (List Clause)) :
    Except DecodeError Payload := do
  let operator ← (← r).required "Operator" (Json.Decode.name GroupOperator.ofName?)
  return ⟨operator, ← clauses⟩

end Payload

namespace Clause

/-- A group if `group` is one, else the condition of the document. -/
def ofGroup (group : Except DecodeError Payload) (j : Json) : Except DecodeError Clause :=
  match group with
  | .ok p => .ok (.group p.operator p.clauses)
  | .error _ => (Condition.decode Condition.wireNames j).map .leaf

mutual

/-- A clause is read as a group, or else as a condition. -/
def decode : Json → Except DecodeError Clause
  | .object entries =>
    let j := .object entries
    ofGroup (Payload.ofRecord (Json.record Payload.fields j) (decodeUnder entries)) j
  | .array items =>
    let j := .array items
    ofGroup (Payload.ofRecord (Json.record Payload.fields j) (decodeAt 1 items)) j
  | _ => .error (.expected "an object")

/-- The clauses under `Condition`; none if there is no such entry. -/
def decodeUnder : List (String × Json) → Except DecodeError (List Clause)
  | [] => .ok []
  | (k, j) :: es => if k = "Condition" then decodeList j else decodeUnder es

/-- The clauses after `skip` other items; none if there are not so many. -/
def decodeAt : Nat → List Json → Except DecodeError (List Clause)
  | _, [] => .ok []
  | 0, j :: _ => decodeList j
  | skip + 1, _ :: js => decodeAt skip js

def decodeList : Json → Except DecodeError (List Clause)
  | .array items => decodeAll items
  | _ => .error (.expected "an array")

def decodeAll : List Json → Except DecodeError (List Clause)
  | [] => .ok []
  | j :: js => do
    let c ← decode j
    return c :: (← decodeAll js)

end

/-- The document of a group whose clauses are documents. -/
def groupJson (operator : GroupOperator) (clauses : List Json) : Json :=
  Json.ofFields [("Operator", some (.text operator.name)), ("Condition", some (.array clauses))]

def encodeAll : List Clause → List Json
  | [] => []
  | leaf c :: cs => c.encode Condition.wireNames :: encodeAll cs
  | group op inner :: cs => groupJson op (encodeAll inner) :: encodeAll cs

end Clause

namespace Payload

def decode : Decoder Payload
  | .object entries =>
    ofRecord (Json.record fields (.object entries)) (Clause.decodeUnder entries)
  | .array items => ofRecord (Json.record fields (.array items)) (Clause.decodeAt 1 items)
  | _ => .error (.expected "an object")

def encode (p : Payload) : Json :=
  Clause.groupJson p.operator (Clause.encodeAll p.clauses)

end Payload

end RecordLogic.Filter
