import RecordLogic.Table

namespace RecordLogic

/-- A JSON document. Whole numbers that 64 bits hold keep their digits, every other number is a
double. The entries of an object stand in the order of the text and may repeat a key. -/
inductive Json where
  | null
  | bool (b : Bool)
  | integer (n : Int)
  | float (x : Float)
  | text (s : String)
  | array (items : List Json)
  | object (entries : List (String × Json))
deriving Inhabited

namespace Json

/-- The whole numbers that keep their digits: 64 bits with or without a sign. -/
def holdsInteger (n : Int) : Bool :=
  -9_223_372_036_854_775_808 ≤ n && n < 18_446_744_073_709_551_616

mutual

/-- Puts the entries of every object in the order of their keys; of entries under one key the last
one stays. -/
def canonical : Json → Json
  | array items => array (canonicalItems items)
  | object entries => object (Entries.ofList (canonicalEntries entries))
  | j => j

def canonicalItems : List Json → List Json
  | [] => []
  | j :: js => canonical j :: canonicalItems js

def canonicalEntries : List (String × Json) → List (String × Json)
  | [] => []
  | (k, j) :: es => (k, canonical j) :: canonicalEntries es

end

mutual

/-- Equality of documents, with the doubles compared as numbers. -/
def same : Json → Json → Bool
  | null, null => true
  | bool a, bool b => a == b
  | integer a, integer b => a == b
  | float a, float b => a == b
  | text a, text b => a == b
  | array a, array b => sameItems a b
  | object a, object b => sameEntries a b
  | _, _ => false

def sameItems : List Json → List Json → Bool
  | [], [] => true
  | a :: as, b :: bs => same a b && sameItems as bs
  | _, _ => false

def sameEntries : List (String × Json) → List (String × Json) → Bool
  | [], [] => true
  | (k, a) :: as, (l, b) :: bs => k == l && same a b && sameEntries as bs
  | _, _ => false

end

instance : BEq Json := ⟨same⟩

/-- The number as a double. -/
def toFloat? : Json → Option Float
  | integer n => some (Float.ofInt n)
  | float x => some x
  | _ => none

end Json

end RecordLogic
