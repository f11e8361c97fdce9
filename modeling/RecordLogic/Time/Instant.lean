import RecordLogic.Time.Calendar

namespace RecordLogic.Time

/-- A point of universal time: whole seconds since 1970 without leap seconds, and nanoseconds. A
leap second carries the number of the second before it and a mark. It follows the last second of a
minute on the clock that it was read from, which may be a local one. -/
structure Instant where
  seconds : Int
  nanos : Nat
  leap : Bool
  nanos_lt : nanos < 1_000_000_000
deriving DecidableEq

namespace Instant

/-- The instant `nanos` after second `seconds`, or in the leap second behind it. -/
def ofParts (seconds : Int) (nanos : Nat) (leap : Bool) : Instant :=
  ⟨seconds, nanos % 1_000_000_000, leap, Nat.mod_lt _ (by decide)⟩

/-- The instant that lies `n` milliseconds after 1970. -/
def ofMillis (n : Int) : Instant :=
  ofParts (n / 1000) ((n % 1000).toNat * 1_000_000) false

/-- Nanoseconds since the start of the numbered second. -/
def subNanos (t : Instant) : Nat :=
  t.nanos + if t.leap then 1_000_000_000 else 0

/-- Whole milliseconds since 1970; a leap second shares those of the second after it. -/
def millis (t : Instant) : Int :=
  1000 * t.seconds + t.subNanos / 1_000_000

def day (t : Instant) : Int :=
  t.seconds / 86400

/-- Seconds since midnight. -/
def secondOfDay (t : Instant) : Int :=
  t.seconds % 86400

def date (t : Instant) : Date :=
  Date.ofDayNumber t.day

def inRange (t : Instant) : Bool :=
  Date.first.dayNumber ≤ t.day && t.day ≤ Date.last.dayNumber

/-- Nanoseconds from `a` to `b`. A leap second counts when the time of day passes over it. -/
def elapsed (a b : Instant) : Int :=
  let passed : Int :=
    if a.secondOfDay < b.secondOfDay then (if a.leap then 1 else 0)
    else if b.secondOfDay < a.secondOfDay then (if b.leap then -1 else 0)
    else 0
  (b.seconds - a.seconds + passed) * 1_000_000_000 + (b.subNanos - a.subNanos)

/-- The instant `n` seconds later. From inside a leap second a move forward starts at the second
before it, a move back at the second after it. -/
def addSeconds (t : Instant) (n : Int) : Instant :=
  if n = 0 then t
  else if t.leap && n < 0 then ofParts (t.seconds + 1 + n) t.nanos false
  else ofParts (t.seconds + n) t.nanos false

/-- The longest duration, in whole seconds: 2 ^ 63 - 1 milliseconds. -/
def longestDuration : Nat := 9_223_372_036_854_775

/-- The instant `n` seconds later, if there is such a duration. -/
def addDuration? (t : Instant) (n : Int) : Option Instant :=
  if n.natAbs ≤ longestDuration then some (t.addSeconds n) else none

/-- The same time of day on another day. -/
def onDay (t : Instant) (n : Int) : Instant :=
  { t with seconds := t.seconds + 86400 * (n - t.day) }

/-- The same time of day `n` months later, on the same day or the last one of a shorter month. -/
def addMonths (t : Instant) (n : Int) : Instant :=
  t.onDay (t.date.addMonths n).dayNumber

/-- Drops what is finer than a millisecond. -/
def truncated (t : Instant) : Instant :=
  { t with
    nanos := t.nanos / 1_000_000 * 1_000_000
    nanos_lt := Nat.lt_of_le_of_lt (Nat.div_mul_le_self _ _) t.nanos_lt }

end Instant

end RecordLogic.Time
