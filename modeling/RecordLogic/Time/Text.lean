import RecordLogic.Time.Instant
import RecordLogic.Number.Digits

namespace RecordLogic.Time

/-- Four digits, with a sign and more digits as needed outside the years 0 to 9999. -/
def yearText (y : Int) : List Char :=
  if 0 ≤ y && y ≤ 9999 then Number.padded 4 y.toNat
  else (if y < 0 then '-' else '+') :: Number.padded 4 y.natAbs

def dateText (d : Date) : List Char :=
  yearText d.year ++ '-' :: Number.padded 2 d.month ++ '-' :: Number.padded 2 d.day

/-- The universal time of an instant as RFC 3339 writes it, with so many places of its fraction; the
other places are dropped. A leap second is second 60. -/
def Instant.text (places : Nat) (t : Instant) : String :=
  let n := t.secondOfDay.toNat
  let second := n % 60 + if t.leap then 1 else 0
  let fraction := t.nanos / Nat.pow 10 (9 - places)
  String.ofList <|
    dateText t.date ++ 'T' :: Number.padded 2 (n / 3600) ++ ':' :: Number.padded 2 (n / 60 % 60) ++
      ':' :: Number.padded 2 second ++ '.' :: Number.padded places fraction ++ ['Z']

end RecordLogic.Time
