import RecordLogic.Number.Digits
import RecordLogic.Number.Shortest

namespace RecordLogic.Number

def withSign (negative : Bool) (s : String) : String :=
  if negative then "-" ++ s else s

/-- `0.00ddd`, `dd.d` or `ddd000`: the digits with the point after the first `point` of them. -/
def positional (digits : List Char) (point : Int) : String :=
  let n := digits.length
  String.ofList <|
    if point ≤ 0 then '0' :: '.' :: (List.replicate (-point).toNat '0' ++ digits)
    else if n ≤ point then digits ++ List.replicate (point.toNat - n) '0'
    else digits.take point.toNat ++ '.' :: digits.drop point.toNat

/-- The text of a number in a formula. Whole numbers below `10 ^ 21` have all their digits; of the
others the shortest digits that read back are written, without an exponent. -/
def text (x : Float) : String :=
  match Exact.ofFloat x with
  | .nan => "NaN"
  | .infinite negative => withSign negative "Infinity"
  | .finite negative m e =>
    withSign negative <|
      if isWhole m e && wholePart m e < 1_000_000_000_000_000_000_000 then toString (wholePart m e)
      else
        let d := shortest .away m e
        let digits := Nat.toDigits 10 d.digits
        positional digits (digits.length + d.exponent)

/-- One digit, a point and the others, and the power of ten with its sign. -/
def scientific (digits : List Char) (power : Int) : String :=
  let mantissa := match digits with
    | [] => []
    | [d] => [d]
    | d :: rest => d :: '.' :: rest
  String.ofList mantissa ++ "e" ++ (if 0 ≤ power then "+" else "-") ++ toString power.natAbs

/-- The text of a double in a JSON document: always with a point or an exponent, positional from
`10 ^ -5` up to `10 ^ 16`. -/
def jsonText (x : Float) : String :=
  match Exact.ofFloat x with
  | .finite negative m e =>
    withSign negative <|
      if m = 0 then "0.0"
      else
        let d := shortest .even m e
        let digits := Nat.toDigits 10 d.digits
        let point := digits.length + d.exponent
        if -5 < point && point ≤ 16 then
          if digits.length ≤ point then positional digits point ++ ".0" else positional digits point
        else scientific digits (point - 1)
  | _ => "null"

end RecordLogic.Number
