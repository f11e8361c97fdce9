import RecordLogic.Number.Digits

namespace RecordLogic.Number

/-- A decimal literal taken apart: `± whole . fraction e exponent`. -/
structure Literal where
  negative : Bool
  whole : List Char
  fraction : List Char
  exponent : Int
deriving DecidableEq

/-- The double nearest to the literal; the half-way cases go to the even one. Beyond `10 ^ 310`
every number rounds to an infinity and below `10 ^ -330` to zero. -/
def Literal.toFloat (l : Literal) : Float :=
  let m := ofDigits (l.whole ++ l.fraction)
  let e := l.exponent - l.fraction.length
  let point := (Nat.toDigits 10 m).length + e
  let magnitude :=
    if m = 0 || point < -330 then 0
    else if 310 < point then 1 / 0
    else Float.ofScientific m (e < 0) e.natAbs
  if l.negative then -magnitude else magnitude

/-- A sign, if there is one, and what follows it. -/
def takeSign : List Char → Bool × List Char
  | '+' :: cs => (false, cs)
  | '-' :: cs => (true, cs)
  | cs => (false, cs)

/-- Reads nothing, or an `e` with one or more digits, with or without a sign, to the end. -/
def readExponent? : List Char → Option Int
  | [] => some 0
  | c :: cs =>
    if c = 'e' || c = 'E' then
      let (negative, cs) := takeSign cs
      if cs.isEmpty || !cs.all isDigit then none
      else some (if negative then -(ofDigits cs : Int) else ofDigits cs)
    else none

/-- Reads digits with at most one point among them and at least one digit, with or without a sign
and an exponent. -/
def readLiteral? (cs : List Char) : Option Literal :=
  let (negative, cs) := takeSign cs
  let (whole, cs) := takeDigits cs
  let (fraction, cs) := match cs with
    | '.' :: rest => takeDigits rest
    | _ => ([], cs)
  if whole.isEmpty && fraction.isEmpty then none
  else (readExponent? cs).map fun exponent => ⟨negative, whole, fraction, exponent⟩

end RecordLogic.Number
