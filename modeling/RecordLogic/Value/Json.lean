import RecordLogic.Json.Decode
import RecordLogic.Number.Exact
import RecordLogic.Time.Text
import RecordLogic.Value.Basic

namespace RecordLogic.Value

mutual

/-- The value of a document: every number becomes a double, and of entries under one key the last
one counts. -/
def ofJson : Json → Value
  | .null => null
  | .bool b => bool b
  | .integer n => number (Float.ofInt n)
  | .float x => number x
  | .text s => text s
  | .array js => array (ofJsonItems js)
  | .object es => object (Entries.ofList (ofJsonEntries es))

def ofJsonItems : List Json → List Value
  | [] => []
  | j :: js => ofJson j :: ofJsonItems js

def ofJsonEntries : List (String × Json) → List (String × Value)
  | [] => []
  | (k, j) :: es => (k, ofJson j) :: ofJsonEntries es

end

/-- The largest whole number up to which doubles hold all whole numbers. -/
def maxSafe : Nat := 9_007_199_254_740_991

/-- Whole numbers up to `maxSafe` have neither a fraction nor a sign of zero; what is no finite
number is null. -/
def numberJson (x : Float) : Json :=
  match Number.whole? x with
  | some n => if n.natAbs ≤ maxSafe then .integer n else .float x
  | none => if x.isFinite then .float x else .null

mutual

/-- The document of a value. Undefined becomes null and a date its text. -/
def toJson : Value → Json
  | undefined | null => .null
  | bool b => .bool b
  | number x => numberJson x
  | text s => .text s
  | date t => .text (t.text 3)
  | array items => .array (toJsonItems items)
  | object entries => .object (toJsonEntries entries)

def toJsonItems : List Value → List Json
  | [] => []
  | v :: vs => toJson v :: toJsonItems vs

def toJsonEntries : List (String × Value) → List (String × Json)
  | [] => []
  | (k, v) :: es => (k, toJson v) :: toJsonEntries es

end

/-- Any document is a value. -/
def decode : Json.Decoder Value := fun j => .ok (ofJson j)

end RecordLogic.Value
