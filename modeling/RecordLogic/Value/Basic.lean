import RecordLogic.Number.Digits
import RecordLogic.Table
import RecordLogic.Time.Instant

namespace RecordLogic

/-- A value of a formula. Undefined says that nothing was found, null is a value of its own. The
entries of an object stand in the order of their keys. -/
inductive Value where
  | undefined
  | null
  | bool (b : Bool)
  | number (x : Float)
  | text (s : String)
  | date (t : Time.Instant)
  | array (items : List Value)
  | object (entries : List (String × Value))
deriving Inhabited

namespace Value

def typeName : Value → String
  | undefined => "undefined"
  | null => "null"
  | bool _ => "boolean"
  | number _ => "number"
  | text _ => "string"
  | date _ => "date"
  | array _ => "array"
  | object _ => "object"

def isUndefined : Value → Bool
  | undefined => true
  | _ => false

def isNullish : Value → Bool
  | undefined | null => true
  | _ => false

/-- The values that have properties. -/
def isObjectLike : Value → Bool
  | date _ | array _ | object _ => true
  | _ => false

/-- Undefined, null, false, zero, NaN and the empty text count as false. -/
def truthy : Value → Bool
  | undefined | null => false
  | bool b => b
  | number x => x != 0 && !x.isNaN
  | text s => !s.isEmpty
  | date _ | array _ | object _ => true

def asText? : Value → Option String
  | text s => some s
  | _ => none

/-- A property of an object-like value: an entry of an object, the length of an array or one of its
items by number. One that is missing is undefined; a date has none. -/
def property? (name : String) : Value → Option Value
  | object entries => some ((Entries.find? name entries).getD undefined)
  | array items =>
    if name = "length" then some (number (Float.ofNat items.length))
    else some (((Number.readWord? 10 name.toList).bind (items[·]?)).getD undefined)
  | date _ => some undefined
  | _ => none

/-- The property of an object-like value; any other value stands for itself. -/
def read (name : String) (v : Value) : Value :=
  (v.property? name).getD v

/-- A reading without a name finds nothing in an object-like value. -/
def readNothing (v : Value) : Value :=
  if v.isObjectLike then undefined else v

mutual

/-- Equality of values, with the numbers compared as numbers: a value that holds a NaN differs from
itself. -/
def same : Value → Value → Bool
  | undefined, undefined => true
  | null, null => true
  | bool a, bool b => a == b
  | number x, number y => x == y
  | text s, text t => s == t
  | date s, date t => s == t
  | array as, array bs => sameItems as bs
  | object as, object bs => sameEntries as bs
  | _, _ => false

def sameItems : List Value → List Value → Bool
  | [], [] => true
  | a :: as, b :: bs => same a b && sameItems as bs
  | _, _ => false

def sameEntries : List (String × Value) → List (String × Value) → Bool
  | [], [] => true
  | (k, a) :: as, (l, b) :: bs => k == l && same a b && sameEntries as bs
  | _, _ => false

end

mutual

/-- The keys of every object inside strictly increase. -/
def WellKeyed : Value → Prop
  | array items => WellKeyedItems items
  | object entries => Entries.Sorted entries ∧ WellKeyedEntries entries
  | _ => True

def WellKeyedItems : List Value → Prop
  | [] => True
  | v :: vs => WellKeyed v ∧ WellKeyedItems vs

def WellKeyedEntries : List (String × Value) → Prop
  | [] => True
  | (_, v) :: es => WellKeyed v ∧ WellKeyedEntries es

end

end Value

end RecordLogic
