import RecordLogic.Json.Basic
import RecordLogic.Number.Digits

namespace RecordLogic.Json

/-- Why a document does not describe what is wanted. -/
inductive DecodeError where
  | expected (what : String)
  | missingField (name : String)
  | duplicateField (name : String)
  | unknownField (name : String)
  | unknownName (name : String)
  | wrongLength (length : Nat)
  | outOfRange (n : Int)
deriving DecidableEq

def DecodeError.message : DecodeError → String
  | expected what => "expected " ++ what
  | missingField name => "missing field " ++ name
  | duplicateField name => "duplicate field " ++ name
  | unknownField name => "unknown field " ++ name
  | unknownName name => "unknown name " ++ name
  | wrongLength n => "wrong number of items: " ++ toString n
  | outOfRange n => "number out of range: " ++ toString n

abbrev Decoder (α : Type) := Json → Except DecodeError α

namespace Decode

def text : Decoder String
  | .text s => .ok s
  | _ => .error (.expected "a string")

def bool : Decoder Bool
  | .bool b => .ok b
  | _ => .error (.expected "a boolean")

/-- A whole number from 0 to `most`. -/
def natural (most : Nat) : Decoder Nat
  | .integer n => if 0 ≤ n ∧ n ≤ most then .ok n.toNat else .error (.outOfRange n)
  | _ => .error (.expected "a whole number")

/-- Any document, brought into its canonical form. -/
def document : Decoder Json := fun j => .ok j.canonical

def items {α : Type} (decode : Decoder α) : Decoder (List α)
  | .array js => js.mapM decode
  | _ => .error (.expected "an array")

/-- One of the names that `ofName?` knows: a string, or the only key of an object over `null`. -/
def name {α : Type} (ofName? : String → Option α) : Decoder α
  | .text s => (ofName? s).elim (.error (.unknownName s)) .ok
  | .object [(s, .null)] => (ofName? s).elim (.error (.unknownName s)) .ok
  | _ => .error (.expected "a name")

/-- The same in a record that is kept until its kind is known: an empty object may stand for the
`null`. -/
def keptName {α : Type} (ofName? : String → Option α) : Decoder α
  | .object [(s, .object [])] => name ofName? (.text s)
  | j => name ofName? j

end Decode

/-- Which fields a record has: their names in order, and how many of the first of them its
positional form must give. -/
structure Fields where
  names : List String
  least : Nat

/-- The fields given for a record. -/
abbrev Record := List (String × Json)

/-- The first name that occurs twice. -/
def firstDuplicate? : List String → Option String
  | [] => none
  | k :: ks => if ks.contains k then some k else firstDuplicate? ks

/-- A record is an object, each of its fields at most once and any other entries besides, or the
array of its fields in order, of which the last may be left out. -/
def record (fields : Fields) : Decoder Record
  | .object entries =>
    let known := entries.filter fun e => fields.names.contains e.1
    match firstDuplicate? (known.map (·.1)) with
    | some k => .error (.duplicateField k)
    | none => .ok known
  | .array items =>
    if fields.least ≤ items.length ∧ items.length ≤ fields.names.length then
      .ok (fields.names.zip items)
    else .error (.wrongLength items.length)
  | _ => .error (.expected "an object")

/-- A record whose object form has no other entries. -/
def strictRecord (fields : Fields) : Decoder Record := fun j =>
  match j with
  | .object entries =>
    match entries.find? fun e => !fields.names.contains e.1 with
    | some e => .error (.unknownField e.1)
    | none => record fields j
  | _ => record fields j

namespace Record

def required {α : Type} (r : Record) (name : String) (decode : Decoder α) : Except DecodeError α :=
  match r.lookup name with
  | some j => decode j
  | none => .error (.missingField name)

/-- A field that may be absent or `null`. -/
def optional {α : Type} (r : Record) (name : String) (decode : Decoder α) :
    Except DecodeError (Option α) :=
  match r.lookup name with
  | none | some .null => .ok none
  | some j => (decode j).map some

/-- A field that may be absent, but not `null` unless `decode` takes it. -/
def defaulted {α : Type} (r : Record) (name : String) (default : α) (decode : Decoder α) :
    Except DecodeError α :=
  match r.lookup name with
  | none => .ok default
  | some j => decode j

end Record

/-- The object of the entries that have a value, in the order of their keys. -/
def ofFields (fields : List (String × Option Json)) : Json :=
  .object (Entries.ofList (fields.filterMap fun f => f.2.map (f.1, ·)))

end RecordLogic.Json
