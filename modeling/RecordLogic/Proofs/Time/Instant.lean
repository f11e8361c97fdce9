import RecordLogic.Proofs.Time.Month
import RecordLogic.Time.Instant

namespace RecordLogic.Time

theorem dayNumber_first : Date.first.dayNumber = -96465292 := by decide

theorem dayNumber_last : Date.last.dayNumber = 95026236 := by decide

namespace Instant

variable {t a b : Instant} {m n : Int}

theorem eq_of_parts (hseconds : a.seconds = b.seconds) (hnanos : a.nanos = b.nanos)
    (hleap : a.leap = b.leap) : a = b := by
  cases a
  cases b
  rw [mk.injEq]
  exact ⟨hseconds, hnanos, hleap⟩

theorem inRange_iff (t : Instant) :
    t.inRange = true ↔ -96465292 ≤ t.day ∧ t.day ≤ 95026236 := by
  rw [inRange, dayNumber_first, dayNumber_last, Bool.and_eq_true, decide_eq_true_eq,
    decide_eq_true_eq]

/-- Outside of leap seconds a shift only changes the number of the second. -/
theorem addSeconds_parts (h : t.leap = false) (n : Int) :
    (t.addSeconds n).seconds = t.seconds + n ∧ (t.addSeconds n).nanos = t.nanos ∧
      (t.addSeconds n).leap = false := by
  rw [addSeconds]
  split
  · rename_i hzero
    exact ⟨by omega, rfl, h⟩
  · have hnanos := Nat.mod_eq_of_lt t.nanos_lt
    simp [h, ofParts, hnanos]

theorem addSeconds_addSeconds (h : t.leap = false) (m n : Int) :
    (t.addSeconds m).addSeconds n = t.addSeconds (m + n) := by
  obtain ⟨hseconds, hnanos, hleap⟩ := addSeconds_parts h m
  obtain ⟨hseconds', hnanos', hleap'⟩ := addSeconds_parts hleap n
  obtain ⟨hsum, hsame, hnone⟩ := addSeconds_parts h (m + n)
  refine eq_of_parts ?_ ?_ ?_
  · rw [hseconds', hseconds, hsum, Int.add_assoc]
  · rw [hnanos', hnanos, hsame]
  · rw [hleap', hnone]

/-- The time that passes between an instant and a shifted one is the shift. -/
theorem elapsed_addSeconds (h : t.leap = false) (n : Int) :
    t.elapsed (t.addSeconds n) = n * 1_000_000_000 := by
  obtain ⟨hseconds, hnanos, hleap⟩ := addSeconds_parts h n
  simp only [elapsed, subNanos, h, hleap, hseconds, hnanos, Bool.false_eq_true, if_false, ite_self]
  omega

/-- A duration between two instants is never too long. -/
theorem natAbs_le_longestDuration (ht : t.inRange = true) (hleap : t.leap = false)
    (h : (t.addSeconds n).inRange = true) : n.natAbs ≤ longestDuration := by
  obtain ⟨hseconds, -⟩ := addSeconds_parts hleap n
  rw [inRange_iff, day] at ht h
  rw [hseconds] at h
  simp only [longestDuration]
  omega

/-- `a` is an earlier instant than `b`; a leap second lies behind the second that it follows. -/
def Before (a b : Instant) : Prop :=
  a.seconds < b.seconds ∨ a.seconds = b.seconds ∧ a.subNanos < b.subNanos

theorem before_addSeconds_iff (h : t.leap = false) (n : Int) :
    t.Before (t.addSeconds n) ↔ 0 < n := by
  obtain ⟨hseconds, hnanos, hleap⟩ := addSeconds_parts h n
  simp only [Before, subNanos, h, hleap, hseconds, hnanos]
  omega

theorem addSeconds_eq_self_iff (h : t.leap = false) (n : Int) :
    t.addSeconds n = t ↔ n = 0 := by
  constructor
  · intro heq
    obtain ⟨hseconds, -⟩ := addSeconds_parts h n
    rw [heq] at hseconds
    omega
  · rintro rfl
    rw [addSeconds, if_pos rfl]

/-- The leap second that is passed over is the same one in both directions. -/
theorem elapsed_swap (a b : Instant) : b.elapsed a = -a.elapsed b := by
  simp only [elapsed]
  rcases Int.lt_trichotomy a.secondOfDay b.secondOfDay with hlt | heq | hlt
  · have hnot : ¬b.secondOfDay < a.secondOfDay := by omega
    simp only [hlt, hnot, if_true, if_false]
    split <;> omega
  · have hnot : ¬a.secondOfDay < b.secondOfDay ∧ ¬b.secondOfDay < a.secondOfDay := by omega
    simp only [hnot.1, hnot.2, if_false]
    omega
  · have hnot : ¬a.secondOfDay < b.secondOfDay := by omega
    simp only [hlt, hnot, if_true, if_false]
    split <;> omega

theorem day_onDay (t : Instant) (n : Int) : (t.onDay n).day = n := by
  simp only [day, onDay]
  omega

theorem secondOfDay_onDay (t : Instant) (n : Int) : (t.onDay n).secondOfDay = t.secondOfDay := by
  simp only [secondOfDay, onDay]
  omega

theorem isValid_date (t : Instant) : t.date.isValid = true :=
  Date.isValid_ofDayNumber t.day

theorem dayNumber_date (t : Instant) : t.date.dayNumber = t.day :=
  Date.dayNumber_ofDayNumber t.day

/-- Months are added to the date and nothing else changes. -/
theorem date_addMonths (t : Instant) (n : Int) : (t.addMonths n).date = t.date.addMonths n := by
  have hvalid := (Date.monthsAfter_addMonths t.isValid_date n).valid
  rw [date, addMonths, day_onDay, Date.ofDayNumber_dayNumber hvalid]

/-- The months that have instants are few. -/
theorem monthNumber_of_inRange (h : t.inRange = true) :
    t.date.monthNumber.natAbs < 4_194_304 := by
  obtain ⟨hlow, hhigh⟩ := (inRange_iff t).mp h
  have hyear := Date.daysBeforeYear_bounds t.isValid_date
  have hmonth := Date.bounds_of_isValid t.isValid_date
  rw [dayNumber_date] at hyear
  simp only [daysBeforeYear] at hyear
  simp only [Date.monthNumber]
  omega

end Instant

end RecordLogic.Time
