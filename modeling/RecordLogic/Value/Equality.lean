import RecordLogic.Value.Coercion

namespace RecordLogic.Value

/-- Numbers and booleans make both sides of a comparison numbers. -/
def isNumeric : Value → Bool
  | bool _ | number _ => true
  | _ => false

/-- Loose equality of two values that are not both arrays or both objects. Nullish values equal each
other only; next to a number the numbers count; an array or object equals a text that is its text; a
date equals dates and date-like texts of its millisecond. -/
def flatEq (zone : Time.Zone) (a b : Value) : Bool :=
  if a.isNullish || b.isNullish then a.isNullish && b.isNullish
  else if a.isNumeric || b.isNumeric then a.toNumber == b.toNumber
  else match a, b with
    | date s, date t => s.millis == t.millis
    | date t, text s | text s, date t => (Time.dateLike? zone s).any (·.millis == t.millis)
    | text s, text t => s == t
    | text s, array _ | text s, object _ => s == b.toText
    | array _, text s | object _, text s => a.toText == s
    | _, _ => false

mutual

/-- Loose equality: arrays item by item, objects entry by entry. -/
def looseEq (zone : Time.Zone) : Value → Value → Bool
  | array as, array bs => looseEqItems zone as bs
  | object as, object bs => looseEqEntries zone as bs
  | a, b => flatEq zone a b

def looseEqItems (zone : Time.Zone) : List Value → List Value → Bool
  | [], [] => true
  | a :: as, b :: bs => looseEq zone a b && looseEqItems zone as bs
  | _, _ => false

/-- Entries in the order of their keys have equal keys at equal places. -/
def looseEqEntries (zone : Time.Zone) : List (String × Value) → List (String × Value) → Bool
  | [], [] => true
  | (k, a) :: as, (l, b) :: bs => k == l && looseEq zone a b && looseEqEntries zone as bs
  | _, _ => false

end

end RecordLogic.Value
