import RecordLogic.Time.Calendar

namespace RecordLogic.Time

theorem daysInMonth_le (y : Int) (m : Nat) : daysInMonth y m ≤ 31 := by
  fun_cases daysInMonth y m <;> omega

/-- A year has as many days as lie between its first day and that of the next year. -/
theorem daysBeforeMonth_year (y : Int) :
    (daysBeforeMonth y 12 : Int) = daysBeforeYear (y + 1) - daysBeforeYear y := by
  have hmonths : daysBeforeMonth y 12 = 337 + daysInMonth y 2 := by
    simp only [daysBeforeMonth, daysInMonth]
    omega
  rw [hmonths, daysInMonth, isLeapYear, daysBeforeYear, daysBeforeYear]
  split
  · rename_i hleap
    simp at hleap
    omega
  · rename_i hleap
    simp at hleap
    omega

namespace Date

/-- The estimate is corrected to the year that holds the day. -/
theorem yearOf_bounds (n : Int) :
    daysBeforeYear (yearOf n) ≤ n + daysBeforeYear 1970 ∧
      n + daysBeforeYear 1970 < daysBeforeYear (yearOf n + 1) := by
  rw [yearOf]
  generalize n + daysBeforeYear 1970 = days
  by_cases hearly : days < daysBeforeYear (400 * days / 146097 + 1)
  · rw [if_pos hearly]
    simp only [daysBeforeYear] at hearly ⊢
    omega
  · rw [if_neg hearly]
    by_cases hlate : daysBeforeYear (400 * days / 146097 + 1 + 1) ≤ days
    · rw [if_pos hlate]
      simp only [daysBeforeYear] at hlate ⊢
      omega
    · rw [if_neg hlate]
      omega

theorem daysBeforeMonth_of_pos (y : Int) {m : Nat} (hm : 0 < m) :
    daysBeforeMonth y m = daysBeforeMonth y (m - 1) + daysInMonth y m := by
  rw [← Nat.sub_add_cancel hm, daysBeforeMonth, Nat.add_sub_cancel]

/-- The days of a year are counted through its months. -/
theorem monthAndDay_eq (y : Int) {m : Nat} (hm : 0 < m) (rest fuel : Nat)
    (h : daysBeforeMonth y (m - 1) + rest < daysBeforeMonth y (m + fuel)) :
    ∃ month day, monthAndDay y m rest fuel = (month, day) ∧
      m ≤ month ∧ month ≤ m + fuel ∧ 0 < day ∧ day ≤ daysInMonth y month ∧
      daysBeforeMonth y (month - 1) + (day - 1) = daysBeforeMonth y (m - 1) + rest := by
  have hthis := daysBeforeMonth_of_pos y hm
  induction fuel generalizing m rest with
  | zero =>
    rw [Nat.add_zero] at h
    exact ⟨m, rest + 1, rfl, by omega, by omega, by omega, by omega, by simp⟩
  | succ fuel ih =>
    by_cases hshort : rest < daysInMonth y m
    · exact ⟨m, rest + 1, by rw [monthAndDay, if_pos hshort], by omega, by omega, by omega,
        by omega, by simp⟩
    · have hrest : daysBeforeMonth y m + (rest - daysInMonth y m) =
          daysBeforeMonth y (m - 1) + rest := by omega
      obtain ⟨month, day, heq, hlow, hhigh, hday⟩ :=
        ih (Nat.succ_pos m) (rest - daysInMonth y m)
          (by rw [Nat.succ_sub_one, hrest, Nat.succ_add_eq_add_succ]; exact h)
          (daysBeforeMonth_of_pos y (Nat.succ_pos m))
      rw [Nat.succ_sub_one, hrest] at hday
      exact ⟨month, day, by rw [monthAndDay, if_neg hshort, heq], by omega, by omega, hday⟩

/-- The date of a day is a date of the calendar, and it is the date of that day only. -/
theorem ofDayNumber_spec (n : Int) :
    (ofDayNumber n).isValid = true ∧ (ofDayNumber n).dayNumber = n := by
  obtain ⟨hlow, hhigh⟩ := yearOf_bounds n
  have hyear : (daysBeforeMonth (yearOf n) (1 + 11) : Int) =
      daysBeforeYear (yearOf n + 1) - daysBeforeYear (yearOf n) :=
    daysBeforeMonth_year (yearOf n)
  have hjanuary : daysBeforeMonth (yearOf n) (1 - 1) = 0 := rfl
  obtain ⟨month, day, heq, hfirst, hlast, hpos, hday, hsum⟩ :=
    monthAndDay_eq (yearOf n) Nat.one_pos
      (n + daysBeforeYear 1970 - daysBeforeYear (yearOf n)).toNat 11
      (by omega)
  have hdate : ofDayNumber n = ⟨yearOf n, month, day⟩ := by
    simp only [ofDayNumber, heq]
  rw [hdate]
  constructor
  · simp only [isValid, Bool.and_eq_true, decide_eq_true_eq]
    exact ⟨⟨⟨hfirst, hlast⟩, hpos⟩, hday⟩
  · simp only [dayNumber]
    omega

theorem isValid_ofDayNumber (n : Int) : (ofDayNumber n).isValid = true :=
  (ofDayNumber_spec n).1

theorem dayNumber_ofDayNumber (n : Int) : (ofDayNumber n).dayNumber = n :=
  (ofDayNumber_spec n).2

example : ofDayNumber 19782 = ⟨2024, 2, 29⟩ := by decide

end Date

end RecordLogic.Time
