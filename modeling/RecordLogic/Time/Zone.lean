import RecordLogic.Time.Instant
import RecordLogic.Number.Digits

namespace RecordLogic.Time

/-- A yearly change of the clock: on the `week`-th `weekday` of a month, the last one if `week` is
5, at a second of the day by the clock before the change. -/
structure Changeover where
  month : Nat
  week : Nat
  weekday : Nat
  second : Int
deriving DecidableEq

/-- The rule of local time, the same one in every year. Offsets are seconds east of universal time.
-/
inductive Zone where
  | fixed (offset : Int)
  | seasonal (standard summer : Int) (start finish : Changeover)
deriving DecidableEq

/-- Universal time. -/
def Zone.utc : Zone := .fixed 0

/-- The day of the change in a year. -/
def Changeover.day (c : Changeover) (year : Int) : Int :=
  let first := Date.dayNumber ⟨year, c.month, 1⟩
  let n := (c.weekday - Time.weekday first) % 7 + 7 * (c.week - 1)
  if n < daysInMonth year c.month then first + n else first + n - 7

/-- The reading of the clock at the change, in seconds since 1970 by that clock. -/
def Changeover.reading (c : Changeover) (year : Int) : Int :=
  86400 * c.day year + c.second

namespace Zone

/-- The offset in force at a second of universal time. -/
def offsetAt (z : Zone) (seconds : Int) : Int :=
  match z with
  | fixed offset => offset
  | seasonal standard summer start finish =>
    let year := Date.yearOf (seconds / 86400)
    let from_ := start.reading year - standard
    let until_ := finish.reading year - summer
    if from_ ≤ until_ then
      if from_ ≤ seconds && seconds < until_ then summer else standard
    else
      if until_ ≤ seconds && seconds < from_ then standard else summer

/-- The offset of a second read on the local clock. A reading that the clock jumps over has none; of
a reading that occurs twice it is the first occurrence. -/
def offsetOf? (z : Zone) (reading : Int) : Option Int :=
  match z with
  | fixed offset => some offset
  | seasonal standard summer start finish =>
    let year := Date.yearOf (reading / 86400)
    let jump := start.reading year
    let back := finish.reading year
    if jump < reading && reading < jump + (summer - standard) then none
    else if jump ≤ back then
      if jump < reading && reading ≤ back then some summer else some standard
    else
      if back < reading && reading ≤ jump then some standard else some summer

/-- The local reading of an instant, in seconds since 1970 by the local clock. -/
def readingOf (z : Zone) (t : Instant) : Int :=
  t.seconds + z.offsetAt t.seconds

def dateOf (z : Zone) (t : Instant) : Date :=
  Date.ofDayNumber (z.readingOf t / 86400)

/-- Seconds since local midnight. -/
def secondOf (z : Zone) (t : Instant) : Int :=
  z.readingOf t % 86400

/-- The instant of a local reading. -/
def instantOf? (z : Zone) (reading : Int) (nanos : Nat) (leap : Bool) : Option Instant :=
  (z.offsetOf? reading).map fun offset => Instant.ofParts (reading - offset) nanos leap

/-- The first instant of the local day of `now`; `now` itself if the clock jumps over midnight or
midnight is out of range. -/
def startOfDay (z : Zone) (now : Instant) : Instant :=
  ((z.instantOf? (86400 * (z.readingOf now / 86400)) 0 false).filter (·.inRange)).getD now

end Zone

namespace Zone.Posix

/-- The name of a zone: three to seven letters, digits and signs. -/
def isName (cs : List Char) : Bool :=
  3 ≤ cs.length && cs.length ≤ 7 && cs.all fun c => c.isAlphanum || c = '+' || c = '-'

/-- Reads a name: letters, or what stands between angle brackets. -/
def name? : List Char → Option (List Char)
  | '<' :: cs =>
    match cs.dropWhile (· ≠ '>') with
    | _ :: rest => if isName (cs.takeWhile (· ≠ '>')) then some rest else none
    | [] => none
  | cs => if isName (cs.takeWhile Char.isAlpha) then some (cs.dropWhile Char.isAlpha) else none

/-- A number of one or more digits. -/
def number? (cs : List Char) : Option (Nat × List Char) :=
  let (ds, rest) := Number.takeDigits cs
  if ds.isEmpty then none else some (Number.ofDigits ds, rest)

/-- Reads `:` and a number, or nothing for 0. -/
def part? : List Char → Option (Nat × List Char)
  | ':' :: cs => number? cs
  | cs => some (0, cs)

/-- Seconds written `hh[:mm[:ss]]`, a day at most. -/
def clock? (cs : List Char) : Option (Int × List Char) := do
  let (h, cs) ← number? cs
  let (m, cs) ← part? cs
  let (s, cs) ← part? cs
  let n : Int := 3600 * h + 60 * m + s
  if m < 60 && s < 60 && n ≤ 86400 then return (n, cs) else none

/-- An offset of less than a day. With a minus it points east, else west. -/
def offset? (cs : List Char) : Option (Int × List Char) := do
  let (east, cs) := match cs with
    | '-' :: rest => (true, rest)
    | '+' :: rest => (false, rest)
    | _ => (false, cs)
  let (n, cs) ← clock? cs
  if n < 86400 then return (if east then n else -n, cs) else none

/-- A change written `,Mm.w.d[/time]`; without a time it is at two o'clock. -/
def changeover? : List Char → Option (Changeover × List Char)
  | ',' :: 'M' :: cs => do
    let (month, cs) ← number? cs
    let '.' :: cs := cs | none
    let (week, cs) ← number? cs
    let '.' :: cs := cs | none
    let (weekday, cs) ← number? cs
    let (second, cs) ← match cs with
      | '/' :: rest => clock? rest
      | _ => some (7200, cs)
    if 1 ≤ month && month ≤ 12 && 1 ≤ week && week ≤ 5 && weekday ≤ 6 then
      return (⟨month, week, weekday, second⟩, cs)
    else none
  | _ => none

/-- The offset in summer, an hour more than the other one if it is left out. -/
def summer? (standard : Int) : List Char → Option (Int × List Char)
  | ',' :: cs => some (standard + 3600, ',' :: cs)
  | cs => offset? cs

/-- The name and the offset of summer, and the changes to it and back. -/
def seasonal? (standard : Int) (cs : List Char) : Option Zone := do
  let cs ← name? cs
  let (summer, cs) ← summer? standard cs
  let (start, cs) ← changeover? cs
  let (finish, cs) ← changeover? cs
  if cs.isEmpty && standard < summer && summer < 86400 then
    return .seasonal standard summer start finish
  else none

/-- Reads a zone as the POSIX variable `TZ` writes it. Rules that a zone cannot hold are refused:
changes on numbered days of the year, and a clock that is put back for the summer. -/
def read? (s : String) : Option Zone := do
  let cs ← name? s.toList
  let (standard, cs) ← offset? cs
  if cs.isEmpty then return .fixed standard else seasonal? standard cs

end Zone.Posix

end RecordLogic.Time
