import RecordLogic.Value.Coercion

namespace RecordLogic

/-- A count that a number gives: its whole part, at least 0 and at most what a word holds. -/
def Number.toCount (x : Float) : Nat :=
  match Number.Exact.ofFloat x with
  | .finite false m e => min (Number.wholePart m e) Number.maxWord
  | .infinite false => Number.maxWord
  | _ => 0

namespace Formula

/-- The arguments of a call; one that is missing is undefined. -/
abbrev Arguments := List Value

namespace Arguments

def arg (args : Arguments) (i : Nat) : Value :=
  args.getD i .undefined

/-- The text of an argument; a nullish one is empty. -/
def text (args : Arguments) (i : Nat) : String :=
  let v := args.arg i
  if v.isNullish then "" else v.toText

def number (args : Arguments) (i : Nat) : Float :=
  (args.arg i).toNumber

/-- The count of an argument, or `default` if it is undefined. -/
def count (args : Arguments) (i default : Nat) : Nat :=
  let v := args.arg i
  if v.isUndefined then default else Number.toCount v.toNumber

/-- The items of an array, or the value itself. -/
def spread : Value → List Value
  | .array items => items
  | v => [v]

/-- The values that are numbers in the end: arrays are opened once, nullish values and those that
give NaN are left out. -/
def numbers (args : Arguments) : List Float :=
  (((args.flatMap spread).filter (!·.isNullish)).map Value.toNumber).filter (!·.isNaN)

end Arguments

end Formula

end RecordLogic
