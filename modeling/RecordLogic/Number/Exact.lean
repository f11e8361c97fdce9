namespace RecordLogic.Number

/-- What a double stands for: no number, an infinity, or exactly `± mantissa · 2 ^ exponent`. -/
inductive Exact where
  | nan
  | infinite (negative : Bool)
  | finite (negative : Bool) (mantissa : Nat) (exponent : Int)
deriving DecidableEq

def Exact.ofFloat (x : Float) : Exact :=
  let bits := x.toBits.toNat
  let negative := 9_223_372_036_854_775_808 ≤ bits
  let fraction := bits % 4_503_599_627_370_496
  let biased : Nat := bits / 4_503_599_627_370_496 % 2048
  if biased = 2047 then if fraction = 0 then .infinite negative else .nan
  else if biased = 0 then .finite negative fraction (-1074)
  else .finite negative (4_503_599_627_370_496 + fraction) ((biased : Int) - 1075)

/-- The double `2 ^ e`, for `e` from -1074 to 1023. -/
def powerOfTwo (e : Int) : Float :=
  if -1022 ≤ e then Float.ofBits (UInt64.ofNat ((e + 1023).toNat * 4_503_599_627_370_496))
  else Float.ofBits (UInt64.ofNat (Nat.pow 2 (e + 1074).toNat))

def signed (negative : Bool) (magnitude : Float) : Float :=
  if negative then -magnitude else magnitude

/-- The double `± m · 2 ^ e`, for a value that doubles hold. -/
def ofScaled (negative : Bool) (m : Nat) (e : Int) : Float :=
  signed negative (Float.ofNat m * powerOfTwo e)

/-- The whole part of `m · 2 ^ e`. -/
def wholePart (m : Nat) (e : Int) : Nat :=
  if 0 ≤ e then m * Nat.pow 2 e.toNat else m / Nat.pow 2 (-e).toNat

/-- `m · 2 ^ e` is a whole number. -/
def isWhole (m : Nat) (e : Int) : Bool :=
  0 ≤ e || m % Nat.pow 2 (-e).toNat = 0

/-- The least whole number that is not below `m · 2 ^ e`. -/
def wholeAbove (m : Nat) (e : Int) : Nat :=
  if isWhole m e then wholePart m e else wholePart m e + 1

/-- The value without its fraction, of a double that is a number. -/
def truncate? (x : Float) : Option Int :=
  match Exact.ofFloat x with
  | .finite negative m e => some (if negative then -(wholePart m e : Int) else wholePart m e)
  | _ => none

/-- The value of a double that is a whole number. -/
def whole? (x : Float) : Option Int :=
  match Exact.ofFloat x with
  | .finite negative m e =>
    if isWhole m e then some (if negative then -(wholePart m e : Int) else wholePart m e) else none
  | _ => none

/-- Rounds toward minus infinity; the sign of zero is kept. -/
def floor (x : Float) : Float :=
  match Exact.ofFloat x with
  | .finite false m e => Float.ofNat (wholePart m e)
  | .finite true m e => -Float.ofNat (wholeAbove m e)
  | _ => x

/-- Rounds toward plus infinity; a negative value above -1 becomes -0. -/
def ceil (x : Float) : Float :=
  match Exact.ofFloat x with
  | .finite false m e => Float.ofNat (wholeAbove m e)
  | .finite true m e => -Float.ofNat (wholePart m e)
  | _ => x

/-- What is left of `x` after as many whole `y` as it holds; the result has the sign of `x`. -/
def remainder (x y : Float) : Float :=
  match Exact.ofFloat x, Exact.ofFloat y with
  | .finite negative m e, .finite _ n f =>
    if n = 0 then 0 / 0
    else
      let low := min e f
      let left := m * Nat.pow 2 (e - low).toNat % (n * Nat.pow 2 (f - low).toNat)
      ofScaled negative left low
  | .finite .., .infinite _ => x
  | _, _ => 0 / 0

/-- The double nearest to `10 ^ d`. -/
def powerOfTen (d : Int) : Float :=
  Float.ofScientific 1 (d < 0) d.natAbs

end RecordLogic.Number
