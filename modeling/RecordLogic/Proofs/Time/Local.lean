import RecordLogic.Proofs.Time.DateLike
import RecordLogic.Proofs.Time.Instant

namespace RecordLogic.Time

namespace Zone

theorem readingOf_utc (t : Instant) : utc.readingOf t = t.seconds := by
  simp only [utc, readingOf, offsetAt]
  omega

theorem dateOf_utc (t : Instant) : utc.dateOf t = t.date := by
  rw [dateOf, readingOf_utc, Instant.date, Instant.day]

theorem secondOf_utc (t : Instant) : utc.secondOf t = t.secondOfDay := by
  rw [secondOf, readingOf_utc, Instant.secondOfDay]

theorem isValid_dateOf (z : Zone) (t : Instant) : (z.dateOf t).isValid = true :=
  Date.isValid_ofDayNumber _

/-- A local day is at most one day away from the universal one. -/
theorem dayNumber_dateOf_fixed {offset : Int} (h : offset.natAbs ≤ 86400) (t : Instant) :
    ((fixed offset).dateOf t).dayNumber = (t.seconds + offset) / 86400 ∧
      t.day - 1 ≤ ((fixed offset).dateOf t).dayNumber ∧
      ((fixed offset).dateOf t).dayNumber ≤ t.day + 1 := by
  have hnumber : ((fixed offset).dateOf t).dayNumber = (t.seconds + offset) / 86400 :=
    Date.dayNumber_ofDayNumber _
  refine ⟨hnumber, ?_, ?_⟩
  · simp only [hnumber, Instant.day]
    omega
  · simp only [hnumber, Instant.day]
    omega

/-- Moving an instant to another universal day moves the local day by as much. -/
theorem dayNumber_dateOf_onDay {offset : Int} (t : Instant) (n : Int) :
    ((fixed offset).dateOf (t.onDay n)).dayNumber =
      n + (((fixed offset).dateOf t).dayNumber - t.day) := by
  rw [dateOf, dateOf, Date.dayNumber_ofDayNumber, Date.dayNumber_ofDayNumber]
  simp only [readingOf, offsetAt, Instant.onDay, Instant.day]
  omega

end Zone

/-- A date, a `T` or a blank, and a time without an offset. -/
def WritesLocal (s : String) (date : Date) (time : ClockTime) : Prop :=
  ∃ separator cs, datePrefix? (Text.trimmed s.toList) = some (date, separator :: cs) ∧
    (separator = 'T' ∨ separator = ' ') ∧ offsetTime? cs = none ∧ localTime? cs = some time

theorem ofDay_lt {time : ClockTime} (h : time.isValid = true) : time.ofDay < 86400 := by
  simp only [ClockTime.isValid, Bool.and_eq_true, decide_eq_true_eq] at h
  rw [ClockTime.ofDay]
  omega

theorem dateLike?_of_writesLocal (zone : Zone) {s : String} {date : Date} {time : ClockTime}
    (h : WritesLocal s date time) : dateLike? zone s =
      zone.instantOf? (86400 * date.dayNumber + time.ofDay) time.nanos time.isLeap := by
  obtain ⟨separator, cs, hdate, hseparator, hoffset, htime⟩ := h
  have hmark : (separator = 'T' || separator = ' ') = true := by simpa using hseparator
  simp only [dateLike?, hdate, Option.bind_eq_bind, Option.bind_some, hoffset, htime]
  rw [if_pos hmark]

theorem seconds_ofParts (seconds : Int) (nanos : Nat) (leap : Bool) :
    (Instant.ofParts seconds nanos leap).seconds = seconds :=
  rfl

/-- The days of the dates that texts write are in range by far. -/
theorem dayNumber_of_isDate {cs : List Char} {d : Date} (h : IsDate cs d) :
    -719528 ≤ d.dayNumber ∧ d.dayNumber < 2932897 := by
  have hyear := h.year_bounds
  have hbounds := Date.daysBeforeYear_bounds h.isValid
  simp only [daysBeforeYear] at hbounds
  omega

/-- Where the offset is fixed and at most a day, every text of a local date and time denotes an
instant of that local date. -/
theorem exists_instant_of_writesLocal {offset : Int} (hoffset : offset.natAbs ≤ 86400) {s : String}
    {date : Date} {time : ClockTime} (h : WritesLocal s date time) :
    ∃ t, dateLike? (.fixed offset) s = some t ∧ (Zone.fixed offset).dateOf t = date ∧
      t.inRange = true := by
  have hread := dateLike?_of_writesLocal (.fixed offset) h
  obtain ⟨separator, cs, hdate, -, -, htime⟩ := h
  obtain ⟨ds, -, hwritten⟩ := exists_of_datePrefix? hdate
  have hvalid := hwritten.isValid
  have hday := dayNumber_of_isDate hwritten
  have hsecond := ofDay_lt (isClock_of_localTime? htime).isValid
  refine ⟨_, hread, ?_, ?_⟩
  · have hreading : (86400 * date.dayNumber + time.ofDay) / 86400 = date.dayNumber := by omega
    rw [Zone.dateOf, Zone.readingOf, seconds_ofParts, Zone.offsetAt, Int.sub_add_cancel, hreading]
    exact Date.ofDayNumber_dayNumber hvalid
  · rw [Instant.inRange_iff, Instant.day, seconds_ofParts]
    omega

end RecordLogic.Time
