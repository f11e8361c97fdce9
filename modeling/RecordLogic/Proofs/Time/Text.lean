import RecordLogic.Proofs.Time.Calendar
import RecordLogic.Proofs.Time.DateLike

namespace RecordLogic.Time

open Number (padded)

theorem isDigits_padded {width n : Nat} (hwidth : 0 < width) (h : n < Nat.pow 10 width) :
    IsDigits width (padded width n) :=
  ⟨Number.length_padded hwidth h, Number.all_isDigit_padded width n⟩

theorem isField_padded {n : Nat} (h : n < 100) : IsField (padded 2 n) n :=
  ⟨isDigits_padded (by decide) h, Number.ofDigits_padded 2 n⟩

theorem isFraction_padded {millis : Nat} (h : millis < 1000) :
    IsFraction ('.' :: padded 3 millis) (millis * 1_000_000) := by
  obtain ⟨hlength, hall⟩ := isDigits_padded (by decide : 0 < 3) h
  have hne : padded 3 millis ≠ [] := List.ne_nil_of_length_pos (by omega)
  have hvalue := ofDigits_take_nine (padded 3 millis)
  rw [List.take_of_length_le (by omega), hlength, Number.ofDigits_padded] at hvalue
  have hfraction := IsFraction.some hne hall
  rwa [← hvalue] at hfraction

theorem isDate_dateText {d : Date} (hd : d.isValid = true) (hlow : 0 ≤ d.year)
    (hhigh : d.year ≤ 9999) : IsDate (dateText d) d := by
  have hmost := daysInMonth_le d.year d.month
  have hfields : d.month < 100 ∧ d.day < 100 := by
    simp only [Date.isValid, Bool.and_eq_true, decide_eq_true_eq] at hd
    omega
  have hvalue : (⟨Number.ofDigits (padded 4 d.year.toNat), Number.ofDigits (padded 2 d.month),
      Number.ofDigits (padded 2 d.day)⟩ : Date) = d := by
    simp only [Number.ofDigits_padded, Int.toNat_of_nonneg hlow]
  have hyear : d.year.toNat < 10_000 := by omega
  have hdate := IsDate.mk (isDigits_padded (by decide : 0 < 4) hyear)
    (isDigits_padded (by decide : 0 < 2) hfields.1) (isDigits_padded (by decide : 0 < 2) hfields.2)
    (hvalue.symm ▸ hd)
  rw [hvalue] at hdate
  simpa [dateText, yearText, hlow, hhigh] using hdate

namespace Instant

theorem ofParts_eq (t : Instant) : ofParts t.seconds t.nanos t.leap = t := by
  simp only [ofParts, Nat.mod_eq_of_lt t.nanos_lt]

theorem millis_truncated (t : Instant) : t.truncated.millis = t.millis := by
  cases hleap : t.leap with
  | false =>
    simp only [millis, subNanos, truncated, hleap, Bool.false_eq_true, ↓reduceIte]
    omega
  | true =>
    simp only [millis, subNanos, truncated, hleap, ↓reduceIte]
    omega

/-- The instant as universal time shows it: a leap second that does not end one of its minutes is
the second after it. -/
def settled (t : Instant) : Instant :=
  { t with
    seconds := if t.leap = true ∧ t.seconds % 60 ≠ 59 then t.seconds + 1 else t.seconds
    leap := t.leap && t.seconds % 60 = 59 }

theorem settled_of_last {t : Instant} (h : t.leap = true → t.seconds % 60 = 59) :
    t.settled = t := by
  obtain ⟨seconds, nanos, leap, hnanos⟩ := t
  cases leap with
  | false => simp [settled]
  | true => simp [settled, show seconds % 60 = 59 from h rfl]

theorem millis_settled (t : Instant) : t.settled.millis = t.millis := by
  cases hleap : t.leap with
  | false => simp [millis, subNanos, settled, hleap]
  | true =>
    by_cases hlast : t.seconds % 60 = 59
    · simp [millis, subNanos, settled, hleap, hlast]
    · simp only [millis, subNanos, settled, hleap, hlast, Bool.and_false, decide_false,
        Bool.false_eq_true, if_true, if_false, and_self, ne_eq, not_false_eq_true]
      omega

theorem truncated_truncated (t : Instant) : t.truncated.truncated = t.truncated := by
  simp only [truncated, mk.injEq, true_and, and_true]
  omega

/-- The second that is written: one more in a leap second. -/
def secondText (t : Instant) : Nat :=
  t.secondOfDay.toNat % 60 + if t.leap then 1 else 0

/-- What the text of an instant says about the time of day. -/
def clock (t : Instant) : ClockTime :=
  ⟨t.secondOfDay.toNat / 3600, t.secondOfDay.toNat / 60 % 60, t.secondText,
    t.nanos / 1_000_000 * 1_000_000⟩

theorem seconds_clock (t : Instant) :
    86400 * t.date.dayNumber + t.clock.ofDay = t.settled.seconds := by
  rw [date, Date.dayNumber_ofDayNumber]
  simp only [ClockTime.ofDay, clock, secondText, secondOfDay, day, settled]
  cases t.leap with
  | false =>
    simp only [Bool.false_eq_true, if_false, false_and]
    omega
  | true =>
    simp only [if_true, true_and]
    split <;> omega

theorem isLeap_clock (t : Instant) : t.clock.isLeap = t.settled.leap := by
  simp only [ClockTime.isLeap, clock, secondText, secondOfDay, settled]
  rcases Bool.eq_false_or_eq_true t.leap with hleap | hleap
  · simp only [hleap, if_true, Bool.true_and, decide_eq_decide]
    omega
  · simp only [hleap, Bool.false_eq_true, if_false, Bool.false_and, decide_eq_false_iff_not]
    omega

theorem instantAt_clock (t : Instant) : instantAt t.date t.clock 0 = t.truncated.settled := by
  rw [instantAt, seconds_clock, isLeap_clock, Int.mul_zero, Int.sub_zero]
  exact ofParts_eq t.truncated.settled

theorem isFullClock_clock (t : Instant) :
    IsFullClock IsField (padded 2 (t.secondOfDay.toNat / 3600) ++
      ':' :: (padded 2 (t.secondOfDay.toNat / 60 % 60) ++ ':' :: (padded 2 t.secondText ++
        '.' :: padded 3 (t.nanos / 1_000_000)))) t.clock := by
  have hnanos := t.nanos_lt
  have hhour : t.secondOfDay.toNat / 3600 < 24 := by
    simp only [secondOfDay]
    omega
  have hsecond : t.secondText ≤ 60 := by
    simp only [secondText]
    split <;> omega
  refine .mk (isField_padded (by omega)) (isField_padded (by omega)) (isField_padded (by omega))
    (isFraction_padded (by omega)) ?_
  simp only [ClockTime.isValid, Bool.and_eq_true, decide_eq_true_eq]
  omega

theorem isDate_date (t : Instant) (hlow : 0 ≤ t.date.year) (hhigh : t.date.year ≤ 9999) :
    IsDate (dateText t.date) t.date :=
  isDate_dateText (Date.isValid_ofDayNumber t.day) hlow hhigh

/-- The text of an instant of the years that have four digits is of the form that is read. -/
theorem accepted_text (t : Instant) (hlow : 0 ≤ t.date.year) (hhigh : t.date.year ≤ 9999) :
    Moment.Accepted (t.text 3).toList (.zoned t.date t.clock 0) := by
  have haccepted := Moment.Accepted.zoned (t.isDate_date hlow hhigh) (Or.inl rfl)
    t.isFullClock_clock (.strict .zulu)
  simpa [text, secondText] using haccepted

theorem trimmed_text (t : Instant) (hlow : 0 ≤ t.date.year) (hhigh : t.date.year ≤ 9999) :
    Text.trimmed (t.text 3).toList = (t.text 3).toList := by
  refine Text.trimmed_eq_self ?_ ?_
  · simpa [text] using (t.isDate_date hlow hhigh).stops _
  · simp [text, Text.isBlank]

/-- The text of an instant of the years that have four digits is read as the instant without what
is finer than a millisecond; the time zone plays no part. -/
theorem dateLike?_text (zone : Zone) (t : Instant) (hlow : 0 ≤ t.date.year)
    (hhigh : t.date.year ≤ 9999) : dateLike? zone (t.text 3) = some t.truncated.settled := by
  have haccepted := t.accepted_text hlow hhigh
  rw [← t.trimmed_text hlow hhigh] at haccepted
  rw [dateLike?_of_accepted zone haccepted, Moment.instant?, t.instantAt_clock]

end Instant

end RecordLogic.Time
