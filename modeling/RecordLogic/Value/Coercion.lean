import RecordLogic.Number.Decimal
import RecordLogic.Number.Text
import RecordLogic.Time.DateLike
import RecordLogic.Time.Text
import RecordLogic.Value.Basic

namespace RecordLogic

namespace Number

/-- The base of a literal with a prefix, and its digits. -/
def takeBase? : List Char → Option (Nat × List Char)
  | '0' :: 'x' :: cs | '0' :: 'X' :: cs => some (16, cs)
  | '0' :: 'o' :: cs | '0' :: 'O' :: cs => some (8, cs)
  | '0' :: 'b' :: cs | '0' :: 'B' :: cs => some (2, cs)
  | _ => none

def nan : Float := 0 / 0

def infinity : Float := 1 / 0

/-- The number that a text without blanks around it writes: nothing is zero, literals with a prefix
must fit 64 bits, and what is no number is NaN. -/
def ofTrimmed (cs : List Char) : Float :=
  if cs.isEmpty then 0
  else if cs = "Infinity".toList || cs = "+Infinity".toList then infinity
  else if cs = "-Infinity".toList then -infinity
  else match takeBase? cs with
    | some (base, digits) => ((readWord? base digits).map Float.ofNat).getD nan
    | none => ((readLiteral? cs).map Literal.toFloat).getD nan

def ofText (s : String) : Float :=
  ofTrimmed (Text.trimmed s.toList)

end Number

namespace Value

mutual

/-- The text of a value. Arrays join the texts of their items with commas. -/
def toText : Value → String
  | undefined => "undefined"
  | null => "null"
  | bool b => if b then "true" else "false"
  | number x => Number.text x
  | text s => s
  | date t => t.text 3
  | array items => String.intercalate "," (itemTexts items)
  | object _ => "[object Object]"

/-- The texts of the items; a nullish one has none. -/
def itemTexts : List Value → List String
  | [] => []
  | v :: vs => (if v.isNullish then "" else toText v) :: itemTexts vs

end

def toNumber : Value → Float
  | undefined => Number.nan
  | null => 0
  | bool b => if b then 1 else 0
  | number x => x
  | text s => Number.ofText s
  | date t => Float.ofInt t.millis
  | array items => Number.ofText (toText (array items))
  | object _ => Number.nan

/-- The instant that a value denotes: a date, or a text that looks like one. -/
def asDate? (zone : Time.Zone) : Value → Option Time.Instant
  | date t => some t
  | text s => Time.dateLike? zone s
  | _ => none

end Value

end RecordLogic
