namespace RecordLogic.Time

/-- A day of the proleptic Gregorian calendar; the year before 1 is 0. -/
structure Date where
  year : Int
  month : Nat
  day : Nat
deriving DecidableEq

def isLeapYear (y : Int) : Bool :=
  y % 4 = 0 && (y % 100 ≠ 0 || y % 400 = 0)

def daysInMonth (y : Int) (m : Nat) : Nat :=
  match m with
  | 2 => if isLeapYear y then 29 else 28
  | 4 | 6 | 9 | 11 => 30
  | _ => 31

/-- Days from the first day of year 1 to the first day of year `y`. -/
def daysBeforeYear (y : Int) : Int :=
  365 * (y - 1) + (y - 1) / 4 - (y - 1) / 100 + (y - 1) / 400

/-- Days of the year before month `m + 1`. -/
def daysBeforeMonth (y : Int) : Nat → Nat
  | 0 => 0
  | m + 1 => daysBeforeMonth y m + daysInMonth y (m + 1)

namespace Date

def isValid (d : Date) : Bool :=
  1 ≤ d.month && d.month ≤ 12 && 1 ≤ d.day && d.day ≤ daysInMonth d.year d.month

/-- Days since 1970-01-01. -/
def dayNumber (d : Date) : Int :=
  daysBeforeYear d.year - daysBeforeYear 1970 + daysBeforeMonth d.year (d.month - 1) + (d.day - 1)

/-- The year of a day, by an estimate that is off by one at most. -/
def yearOf (n : Int) : Int :=
  let days := n + daysBeforeYear 1970
  let guess := 400 * days / 146097 + 1
  if days < daysBeforeYear guess then guess - 1
  else if daysBeforeYear (guess + 1) ≤ days then guess + 1
  else guess

/-- The month and day that lie `rest` days after the first day of month `m`, passing at most `fuel`
months. -/
def monthAndDay (y : Int) (m rest : Nat) : Nat → Nat × Nat
  | 0 => (m, rest + 1)
  | fuel + 1 =>
    if rest < daysInMonth y m then (m, rest + 1)
    else monthAndDay y (m + 1) (rest - daysInMonth y m) fuel

/-- The date that lies `n` days after 1970-01-01. -/
def ofDayNumber (n : Int) : Date :=
  let y := yearOf n
  let (m, d) := monthAndDay y 1 (n + daysBeforeYear 1970 - daysBeforeYear y).toNat 11
  ⟨y, m, d⟩

/-- The number of the month, counted from January of year 0. -/
def monthNumber (d : Date) : Int :=
  12 * d.year + (d.month - 1)

/-- The same day `n` months later, or the last day of that month if it is shorter. -/
def addMonths (d : Date) (n : Int) : Date :=
  let month := d.monthNumber + n
  let y := month / 12
  let m := (month % 12).toNat + 1
  ⟨y, m, min d.day (daysInMonth y m)⟩

/-- The first day that has an instant. -/
def first : Date := ⟨-262143, 1, 1⟩

/-- The last day that has an instant. -/
def last : Date := ⟨262142, 12, 31⟩

end Date

/-- The weekday of a day; Sunday is 0. -/
def weekday (n : Int) : Int :=
  (n + 4) % 7

end RecordLogic.Time
