import RecordLogic.Formula.Arguments
import RecordLogic.Formula.Error
import RecordLogic.Text.Casing

namespace RecordLogic.Formula

open Arguments

/-- The units of date arithmetic. The first four have a fixed length. -/
inductive DateUnit where
  | minutes
  | hours
  | days
  | weeks
  | months
  | years
deriving DecidableEq

namespace DateUnit

/-- The unit with a name in the singular and in small letters. -/
def ofName? : String → Option DateUnit
  | "minute" => some minutes
  | "hour" => some hours
  | "day" => some days
  | "week" => some weeks
  | "month" => some months
  | "year" => some years
  | _ => none

/-- The name of a unit in small letters and without the letters `s` at its end. -/
def singular (s : String) : String :=
  String.ofList (((Text.lower s).toList.reverse.dropWhile (· = 's')).reverse)

/-- The seconds of a unit of fixed length. -/
def seconds? : DateUnit → Option Int
  | minutes => some 60
  | hours => some 3600
  | days => some 86400
  | weeks => some 604800
  | months | years => none

/-- The months of a unit of the calendar. -/
def calendarMonths : DateUnit → Int
  | years => 12
  | _ => 1

end DateUnit

/-- The unit that a call asks for: days unless its third argument says otherwise. -/
def dateUnit (function : String) (args : Arguments) : Except EvalError DateUnit :=
  let v := args.arg 2
  if v.isNullish then .ok .days
  else
    match DateUnit.ofName? (DateUnit.singular v.toText) with
    | some unit => .ok unit
    | none => .error (.function function ("unknown date unit: " ++ v.toText))

/-- A field of the local date of the first argument. -/
def datePart (zone : Time.Zone) (part : Time.Date → Int) (args : Arguments) : Value :=
  match (args.arg 0).asDate? zone with
  | some t => .number (Float.ofInt (part (zone.dateOf t)))
  | none => .undefined

/-- The instant `n` units later, if there are such a duration and such an instant. -/
def shift? (unit : DateUnit) (t : Time.Instant) (n : Int) : Option Time.Instant :=
  let shifted := match unit.seconds? with
    | some seconds => t.addDuration? (seconds * n)
    | none => some (t.addMonths (unit.calendarMonths * n))
  shifted.filter (·.inRange)

/-- Whole units of a date and an amount without its fraction. -/
def dateAdd (zone : Time.Zone) (args : Arguments) : Except EvalError Value := do
  let unit ← dateUnit "DATEADD" args
  return match (args.arg 0).asDate? zone, Number.truncate? (args.number 1) with
    | some t, some n => ((shift? unit t n).map Value.date).getD .undefined
    | _, _ => .undefined

/-- Where an instant stands in its local month. -/
def placeInMonth (zone : Time.Zone) (t : Time.Instant) : Nat × Int × Nat :=
  ((zone.dateOf t).day, zone.secondOf t, t.subNanos)

/-- Compares places by day, then by second, then by fraction. -/
def earlier (p q : Nat × Int × Nat) : Bool :=
  p.1 < q.1 || p.1 = q.1 && (p.2.1 < q.2.1 || p.2.1 = q.2.1 && p.2.2 < q.2.2)

/-- Whole months of the local calendar from `a` to `b`; a part of a month does not count. -/
def monthSpan (zone : Time.Zone) (a b : Time.Instant) : Int :=
  let months := (zone.dateOf b).monthNumber - (zone.dateOf a).monthNumber
  let (p, q) := (placeInMonth zone a, placeInMonth zone b)
  if 0 < months && earlier q p then months - 1
  else if months < 0 && earlier p q then months + 1
  else months

/-- Whole units from `a` to `b`, counted toward zero. -/
def span (zone : Time.Zone) (unit : DateUnit) (a b : Time.Instant) : Int :=
  match unit.seconds? with
  | some seconds => (a.elapsed b).tdiv (seconds * 1_000_000_000)
  | none => (monthSpan zone a b).tdiv unit.calendarMonths

def dateDiff (zone : Time.Zone) (args : Arguments) : Except EvalError Value := do
  let unit ← dateUnit "DATEDIFF" args
  return match (args.arg 0).asDate? zone, (args.arg 1).asDate? zone with
    | some a, some b => .number (Float.ofInt (span zone unit a b))
    | _, _ => .undefined

end RecordLogic.Formula
