import RecordLogic.Text.Blank
import RecordLogic.Time.Zone

namespace RecordLogic.Time

/-- The time of day that a text writes. -/
structure ClockTime where
  hour : Nat
  minute : Nat
  second : Nat
  nanos : Nat
deriving DecidableEq

namespace ClockTime

/-- Second 60 of any minute is taken for a leap second. -/
def isValid (c : ClockTime) : Bool :=
  c.hour < 24 && c.minute < 60 && c.second ≤ 60

def isLeap (c : ClockTime) : Bool :=
  c.second = 60

/-- The number of the second in the day. -/
def ofDay (c : ClockTime) : Nat :=
  3600 * c.hour + 60 * c.minute + min c.second 59

end ClockTime

/-- Two digits. -/
def twoDigits? : List Char → Option (Nat × List Char)
  | a :: b :: cs =>
    if Number.isDigit a && Number.isDigit b then some (Number.ofDigits [a, b], cs) else none
  | _ => none

/-- One or two digits after blanks. -/
def fewDigits? (cs : List Char) : Option (Nat × List Char) :=
  let cs := cs.dropWhile Text.isBlank
  let ds := (cs.take 2).takeWhile Number.isDigit
  if ds.isEmpty then none else some (Number.ofDigits ds, cs.drop ds.length)

/-- The next character must be `c`. -/
def expect? (c : Char) : List Char → Option (List Char)
  | d :: cs => if c = d then some cs else none
  | [] => none

/-- A point and digits, of which nine count, or nothing. -/
def fraction? : List Char → Option (Nat × List Char)
  | '.' :: cs =>
    let (ds, rest) := Number.takeDigits cs
    let ds := ds.take 9
    if ds.isEmpty then none else some (Number.ofDigits ds * Nat.pow 10 (9 - ds.length), rest)
  | cs => some (0, cs)

/-- An offset to the end of the text, in minutes: `Z`, or a sign, hours and minutes. -/
def offset? : List Char → Option Int
  | ['Z'] | ['z'] => some 0
  | sign :: cs => do
    let negative ← if sign = '+' then some false
      else if sign = '-' || sign = '\u2212' then some true else none
    let (h, cs) ← twoDigits? cs
    let cs ← expect? ':' cs
    let (m, cs) ← twoDigits? cs
    if cs.isEmpty && h < 24 && m < 60 then
      let n : Int := 60 * h + m
      return if negative then -n else n
    else none
  | [] => none

/-- A time with seconds and an offset, all fields of two digits. -/
def offsetTime? (cs : List Char) : Option (ClockTime × Int) := do
  let (hour, cs) ← twoDigits? cs
  let cs ← expect? ':' cs
  let (minute, cs) ← twoDigits? cs
  let cs ← expect? ':' cs
  let (second, cs) ← twoDigits? cs
  let (nanos, cs) ← fraction? cs
  let offset ← offset? cs
  let time : ClockTime := ⟨hour, minute, second, nanos⟩
  if time.isValid then return (time, offset) else none

/-- A time without an offset, with or without seconds; its fields may be short and have blanks
before them. -/
def localTime? (cs : List Char) : Option ClockTime := do
  let (hour, cs) ← fewDigits? cs
  let cs ← expect? ':' cs
  let (minute, cs) ← fewDigits? cs
  let (second, nanos) ← match cs with
    | [] => some (0, 0)
    | _ => do
      let cs ← expect? ':' cs
      let (second, cs) ← fewDigits? cs
      let (nanos, cs) ← fraction? cs
      if cs.isEmpty then some (second, nanos) else none
  let time : ClockTime := ⟨hour, minute, second, nanos⟩
  if time.isValid then return time else none

/-- A valid date of the form `yyyy-mm-dd` and what follows it. -/
def datePrefix? : List Char → Option (Date × List Char)
  | a :: b :: c :: d :: '-' :: e :: f :: '-' :: g :: h :: cs =>
    let date : Date :=
      ⟨Number.ofDigits [a, b, c, d], Number.ofDigits [e, f], Number.ofDigits [g, h]⟩
    if [a, b, c, d, e, f, g, h].all Number.isDigit && date.isValid then some (date, cs) else none
  | _ => none

/-- The instant of a date and time at an offset in minutes. -/
def instantAt (date : Date) (time : ClockTime) (offset : Int) : Instant :=
  Instant.ofParts (86400 * date.dayNumber + time.ofDay - 60 * offset) time.nanos time.isLeap

/-- Reads a date, optionally with a time after a `T` or a blank. A bare date is midnight of
universal time; a time without an offset is local. -/
def dateLike? (zone : Zone) (s : String) : Option Instant := do
  let (date, cs) ← datePrefix? (Text.trimmed s.toList)
  match cs with
  | [] => return instantAt date ⟨0, 0, 0, 0⟩ 0
  | separator :: cs =>
    if separator = 'T' || separator = ' ' then
      match offsetTime? cs with
      | some (time, offset) => return instantAt date time offset
      | none => do
        let time ← localTime? cs
        zone.instantOf? (86400 * date.dayNumber + time.ofDay) time.nanos time.isLeap
    else none

/-- Reads an instant as RFC 3339 writes it. -/
def rfc3339? (s : String) : Option Instant := do
  let (date, cs) ← datePrefix? s.toList
  match cs with
  | separator :: cs =>
    if separator = 'T' || separator = 't' || separator = ' ' then
      let (time, offset) ← offsetTime? cs
      return instantAt date time offset
    else none
  | [] => none

end RecordLogic.Time
