import RecordLogic.Number.Exact

namespace RecordLogic.Number

/-- The decimal number `digits · 10 ^ exponent`. -/
structure Decimal where
  digits : Nat
  exponent : Int
deriving DecidableEq

/-- Which of two equally near decimals is taken. -/
inductive Tie where
  | even
  | away
deriving DecidableEq

/-- Drops the trailing zeros of the digits, at most `fuel` of them. -/
def Decimal.strip : Nat → Decimal → Decimal
  | fuel + 1, d => if d.digits % 10 = 0 then strip fuel ⟨d.digits / 10, d.exponent + 1⟩ else d
  | 0, d => d

/-- The reals that round to a double, as numerators over one denominator. The ends belong to them
when the mantissa is even. -/
structure Interval where
  lower : Nat
  value : Nat
  upper : Nat
  denominator : Nat
  closed : Bool

/-- The double below a power of two is half as far away as the one above it. -/
def Interval.ofScaled (m : Nat) (e : Int) : Interval :=
  let scale := Nat.pow 2 (e - 2).toNat
  let below := if m = 4_503_599_627_370_496 && -1074 < e then 1 else 2
  { lower := (4 * m - below) * scale
    value := 4 * m * scale
    upper := (4 * m + 2) * scale
    denominator := Nat.pow 2 (2 - e).toNat
    closed := m % 2 = 0 }

namespace Interval

/-- The `p` with `10 ^ (p - 1) ≤ value < 10 ^ p`. -/
def point (i : Interval) : Int :=
  if i.denominator ≤ i.value then (Nat.toDigits 10 (i.value / i.denominator)).length
  else 1 - ((Nat.toDigits 10 ((i.denominator - 1) / i.value)).length : Int)

/-- Multiplies the interval by `10 ^ -u`, so that the multiples of `10 ^ u` become whole. -/
def inUnits (i : Interval) (u : Int) : Interval :=
  let up := Nat.pow 10 (-u).toNat
  { i with
    lower := i.lower * up
    value := i.value * up
    upper := i.upper * up
    denominator := i.denominator * Nat.pow 10 u.toNat }

def has (i : Interval) (n : Nat) : Bool :=
  let x := n * i.denominator
  if i.closed then i.lower ≤ x && x ≤ i.upper else i.lower < x && x < i.upper

/-- The whole number of the interval that is nearest to its value, if there is one. -/
def nearest? (i : Interval) (tie : Tie) : Option Nat :=
  let c := i.value / i.denominator
  match i.has c, i.has (c + 1) with
  | true, false => some c
  | false, true => some (c + 1)
  | false, false => none
  | true, true =>
    let twice := 2 * i.value
    let middle := (2 * c + 1) * i.denominator
    if twice < middle then some c
    else if middle < twice then some (c + 1)
    else match tie with
      | .away => some (c + 1)
      | .even => some (if c % 2 = 0 then c else c + 1)

/-- Tries grids of `n`, `n + 1`, … digits, `fuel` of them, and takes the first with a point in the
interval. -/
def search (i : Interval) (tie : Tie) (n : Nat) : Nat → Decimal
  | 0 => ⟨i.value / i.denominator, 0⟩
  | fuel + 1 =>
    let u := i.point - n
    match (i.inUnits u).nearest? tie with
    | some c => Decimal.strip 17 ⟨c, u⟩
    | none => search i tie (n + 1) fuel

end Interval

/-- The decimal of fewest digits that reads back as `m · 2 ^ e`, for a positive `m`. Seventeen
digits are always enough. -/
def shortest (tie : Tie) (m : Nat) (e : Int) : Decimal :=
  (Interval.ofScaled m e).search tie 1 17

end RecordLogic.Number
