import RecordLogic.Formula.DateFunctions
import RecordLogic.Formula.MathFunctions
import RecordLogic.Formula.TextFunctions

namespace RecordLogic.Formula

open Arguments

inductive Builtin where
  | abs
  | avg
  | ceil
  | coalesce
  | concat
  | dateAdd
  | dateDiff
  | day
  | floor
  | choose
  | isEmpty
  | left
  | len
  | lower
  | max
  | min
  | month
  | replace
  | right
  | round
  | substring
  | sum
  | trim
  | upper
  | year
deriving DecidableEq

namespace Builtin

def all : List Builtin :=
  [abs, avg, ceil, coalesce, concat, dateAdd, dateDiff, day, floor, choose, isEmpty, left, len,
    lower, max, min, month, replace, right, round, substring, sum, trim, upper, year]

def name : Builtin → String
  | abs => "ABS"
  | avg => "AVG"
  | ceil => "CEIL"
  | coalesce => "COALESCE"
  | concat => "CONCAT"
  | dateAdd => "DATEADD"
  | dateDiff => "DATEDIFF"
  | day => "DAY"
  | floor => "FLOOR"
  | choose => "IF"
  | isEmpty => "ISEMPTY"
  | left => "LEFT"
  | len => "LEN"
  | lower => "LOWER"
  | max => "MAX"
  | min => "MIN"
  | month => "MONTH"
  | replace => "REPLACE"
  | right => "RIGHT"
  | round => "ROUND"
  | substring => "SUBSTRING"
  | sum => "SUM"
  | trim => "TRIM"
  | upper => "UPPER"
  | year => "YEAR"

/-- A nullish value, a blank text, an array without items or an object without entries. -/
def isEmptyValue : Value → Bool
  | .undefined | .null => true
  | .text s => Text.isBlankText s
  | .array items => items.isEmpty
  | .object entries => entries.isEmpty
  | _ => false

/-- The value of a call. Only an unknown date unit makes it fail. -/
def apply (zone : Time.Zone) : Builtin → Arguments → Except EvalError Value
  | abs, args => .ok (.number (args.number 0).abs)
  | avg, args => .ok (average args)
  | ceil, args => .ok (.number (Number.ceil (args.number 0)))
  | coalesce, args => .ok ((args.find? (!·.isNullish)).getD .undefined)
  | concat, args => .ok (Formula.concat args)
  | dateAdd, args => Formula.dateAdd zone args
  | dateDiff, args => Formula.dateDiff zone args
  | day, args => .ok (datePart zone (·.day) args)
  | floor, args => .ok (.number (Number.floor (args.number 0)))
  | choose, args => .ok (args.arg (if (args.arg 0).truthy then 1 else 2))
  | isEmpty, args => .ok (.bool (isEmptyValue (args.arg 0)))
  | left, args => .ok (Formula.left args)
  | len, args => .ok (Formula.len args)
  | lower, args => .ok (.text (Text.lower (args.text 0)))
  | max, args => .ok (best (fun x y => y < x) args)
  | min, args => .ok (best (fun x y => x < y) args)
  | month, args => .ok (datePart zone (·.month) args)
  | replace, args => .ok (Formula.replace args)
  | right, args => .ok (Formula.right args)
  | round, args => .ok (Formula.round args)
  | substring, args => .ok (Formula.substring args)
  | sum, args => .ok (Formula.sum args)
  | trim, args => .ok (.text (Text.trim (args.text 0)))
  | upper, args => .ok (.text (Text.upper (args.text 0)))
  | year, args => .ok (datePart zone (·.year) args)

end Builtin

end RecordLogic.Formula
