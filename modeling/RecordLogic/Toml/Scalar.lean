import RecordLogic.Number.Decimal
import RecordLogic.Time.DateLike
import RecordLogic.Toml.Basic

namespace RecordLogic.Toml

/-- The digits of a number without the underscores, each of which stands between two digits. -/
def digits? (isDigit : Char → Bool) : List Char → Option (List Char)
  | [] => none
  | [c] => if isDigit c then some [c] else none
  | c :: '_' :: cs => if isDigit c then (digits? isDigit cs).map (c :: ·) else none
  | c :: d :: cs => if isDigit c then (digits? isDigit (d :: cs)).map (c :: ·) else none

def isSigned64 (n : Int) : Bool :=
  -9_223_372_036_854_775_808 ≤ n && n < 9_223_372_036_854_775_808

/-- A whole part has no leading zeros. -/
def wholeDigits? (cs : List Char) : Option (List Char) :=
  (digits? Number.isDigit cs).filter fun ds => ds = ['0'] || ds.head? ≠ some '0'

def baseInteger? (base : Nat) (cs : List Char) : Option Toml := do
  let ds ← digits? (fun c => (Number.baseDigit? base c).isSome) cs
  let n ← Number.ofBaseDigits? base ds
  if isSigned64 n then return integer n else none

def integer? (cs : List Char) : Option Toml := do
  let (negative, cs) := Number.takeSign cs
  let m := Number.ofDigits (← wholeDigits? cs)
  let n : Int := if negative then -(m : Int) else m
  if isSigned64 n then return integer n else none

/-- A number with a fraction, an exponent or both. -/
def float? (cs : List Char) : Option Toml := do
  let (negative, cs) := Number.takeSign cs
  let isExponent (c : Char) : Bool := c = 'e' || c = 'E'
  let mantissa := cs.takeWhile (!isExponent ·)
  let power := cs.dropWhile (!isExponent ·)
  let whole ← wholeDigits? (mantissa.takeWhile (· ≠ '.'))
  let fraction ← match mantissa.dropWhile (· ≠ '.') with
    | [] => if power.isEmpty then none else some []
    | _ :: ds => digits? Number.isDigit ds
  let exponent ← match power with
    | [] => some (0 : Int)
    | _ :: ds =>
      let (minus, ds) := Number.takeSign ds
      (digits? Number.isDigit ds).map fun ds =>
        if minus then -(Number.ofDigits ds : Int) else Number.ofDigits ds
  let x := Number.Literal.toFloat ⟨negative, whole, fraction, exponent⟩
  if x.isFinite then return float x else none

def namedFloat? (cs : List Char) : Option Toml :=
  let (negative, cs) := Number.takeSign cs
  if cs = ['i', 'n', 'f'] then some (float (if negative then -1 / 0 else 1 / 0))
  else if cs = ['n', 'a', 'n'] then some (float (0 / 0))
  else none

/-- A time of day with seconds, and what follows it. -/
def time? (cs : List Char) : Option (List Char) := do
  let (hour, cs) ← Time.twoDigits? cs
  let cs ← Time.expect? ':' cs
  let (minute, cs) ← Time.twoDigits? cs
  let cs ← Time.expect? ':' cs
  let (second, cs) ← Time.twoDigits? cs
  let (nanos, cs) ← Time.fraction? cs
  let time : Time.ClockTime := ⟨hour, minute, second, nanos⟩
  if time.isValid then return cs else none

/-- A date, a time, or both with or without an offset. -/
def date? (cs : List Char) : Option Toml :=
  match Time.datePrefix? cs with
  | some (_, []) => some date
  | some (_, c :: cs) => do
    if c = 'T' || c = 't' || c = ' ' then
      let cs ← time? cs
      if cs.isEmpty then return date
      else
        let _ ← Time.offset? cs
        return date
    else none
  | none => do
    let cs ← time? cs
    if cs.isEmpty then return date else none

/-- A value without quotes or brackets. -/
def scalar? (cs : List Char) : Option Toml :=
  match cs with
  | ['t', 'r', 'u', 'e'] => some (bool true)
  | ['f', 'a', 'l', 's', 'e'] => some (bool false)
  | '0' :: 'x' :: ds => baseInteger? 16 ds
  | '0' :: 'o' :: ds => baseInteger? 8 ds
  | '0' :: 'b' :: ds => baseInteger? 2 ds
  | _ =>
    match integer? cs with
    | some v => some v
    | none =>
      match float? cs with
      | some v => some v
      | none => (namedFloat? cs).or (date? cs)

end RecordLogic.Toml
