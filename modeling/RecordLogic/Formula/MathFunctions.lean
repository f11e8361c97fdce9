import RecordLogic.Formula.Arguments

namespace RecordLogic.Formula

open Arguments

/-- The decimal places of `ROUND`, from -15 to 15; none is asked for by no argument. -/
def places? (args : Arguments) : Option Int :=
  if (args.arg 1).isUndefined then some 0
  else
    match Number.Exact.ofFloat (args.number 1) with
    | .nan => none
    | .infinite negative => some (if negative then -15 else 15)
    | .finite negative m e =>
      let n : Int := min (Number.wholePart m e) 15
      some (if negative then -n else n)

/-- Rounds half up to decimal places. -/
def round (args : Arguments) : Value :=
  match places? args with
  | none => .number Number.nan
  | some d =>
    let factor := Number.powerOfTen d
    .number (Number.floor (args.number 0 * factor + 0.5) / factor)

/-- The number that `better` prefers to all before it; undefined if there is none. -/
def best (better : Float → Float → Bool) (args : Arguments) : Value :=
  match args.numbers with
  | [] => .undefined
  | x :: xs => .number (xs.foldl (fun a b => if better b a then b else a) x)

/-- The sum starts from minus zero, the sum of no numbers. -/
def sum (args : Arguments) : Value :=
  .number (args.numbers.foldl (· + ·) (-0.0))

def average (args : Arguments) : Value :=
  match args.numbers with
  | [] => .undefined
  | xs => .number (xs.foldl (· + ·) 0 / Float.ofNat xs.length)

end RecordLogic.Formula
