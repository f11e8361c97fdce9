import RecordLogic.Formula.Expr
import RecordLogic.Value.Json

namespace RecordLogic.Formula.Expr

open Json (Decoder DecodeError Fields Record)

/-- The fields of a node, whatever its type. -/
def fields : Fields :=
  ⟨["type", "value", "name", "operator", "callee", "args", "property"], 1⟩

/-- A property is a record that holds its name. -/
def decodeProperty : Decoder String := fun j => do
  let r ← Json.record ⟨["name"], 1⟩ j
  r.required "name" Json.Decode.text

/-- The node of a record whose arguments are known. Fields that its type has no use for are dropped,
absent texts are empty, and an empty callee is none. -/
def ofRecord (r : Record) (args : List Expr) : Except DecodeError Expr := do
  let type ← r.required "type" Json.Decode.text
  let value ← r.defaulted "value" .undefined Value.decode
  let name := (← r.optional "name" Json.Decode.text).getD ""
  let operator := (← r.optional "operator" Json.Decode.text).getD ""
  let callee ← r.optional "callee" Json.Decode.text
  let property ← r.optional "property" decodeProperty
  return match type with
    | "Literal" => literal property value
    | "Identifier" => identifier property name
    | "SystemIdentifier" => system property name
    | "BinaryExpression" => binary property operator args
    | "LogicalExpression" => logical property operator args
    | "CallExpression" => call property (callee.filter (· ≠ "")) args
    | "MemberExpression" => member property args
    | "AssignmentExpression" => assignment property args
    | _ => unsupported property type

mutual

def decode : Json → Except DecodeError Expr
  | .object entries => do
    let r ← Json.record fields (.object entries)
    ofRecord r (← decodeArgs entries)
  | .array items => do
    let r ← Json.record fields (.array items)
    ofRecord r (← decodeArgsAt 5 items)
  | _ => .error (.expected "an object")

/-- The list under `args`; none if there is no such entry. -/
def decodeArgs : List (String × Json) → Except DecodeError (List Expr)
  | [] => .ok []
  | (k, j) :: es => if k = "args" then decodeList j else decodeArgs es

/-- The list after `skip` other items; none if there are not so many. -/
def decodeArgsAt : Nat → List Json → Except DecodeError (List Expr)
  | _, [] => .ok []
  | 0, j :: _ => decodeList j
  | skip + 1, _ :: js => decodeArgsAt skip js

def decodeList : Json → Except DecodeError (List Expr)
  | .array items => decodeAll items
  | _ => .error (.expected "an array")

def decodeAll : List Json → Except DecodeError (List Expr)
  | [] => .ok []
  | j :: js => do
    let e ← decode j
    return e :: (← decodeAll js)

end

/-- What a node has of its own, besides its type, arguments and property. -/
def ownFields : Expr → List (String × Option Json)
  | literal _ value => [("value", if value.isUndefined then none else some value.toJson)]
  | identifier _ name | system _ name => [("name", some (.text name))]
  | binary _ operator _ | logical _ operator _ => [("operator", some (.text operator))]
  | call _ callee _ => [("callee", callee.map .text)]
  | member .. | assignment .. | unsupported .. => []

/-- The document of a node whose arguments are already documents. -/
def node (e : Expr) (args : List Json) : Json :=
  Json.ofFields <|
    [("type", some (.text e.typeName))] ++ e.ownFields ++
      [("args", if args.isEmpty then none else some (.array args)),
        ("property", e.property.map fun p => Json.ofFields [("name", some (.text p))])]

mutual

def encode : Expr → Json
  | binary p operator args => node (binary p operator args) (encodeAll args)
  | logical p operator args => node (logical p operator args) (encodeAll args)
  | call p callee args => node (call p callee args) (encodeAll args)
  | member p args => node (member p args) (encodeAll args)
  | assignment p args => node (assignment p args) (encodeAll args)
  | literal p value => node (literal p value) []
  | identifier p name => node (identifier p name) []
  | system p name => node (system p name) []
  | unsupported p type => node (unsupported p type) []

def encodeAll : List Expr → List Json
  | [] => []
  | e :: es => encode e :: encodeAll es

end

end RecordLogic.Formula.Expr
