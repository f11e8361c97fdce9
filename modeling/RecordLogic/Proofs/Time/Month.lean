import RecordLogic.Proofs.Time.Calendar

namespace RecordLogic.Time

/-- The days of the month with a number, as `Date.monthNumber` numbers months. -/
def monthLength (k : Int) : Nat :=
  daysInMonth (k / 12) ((k % 12).toNat + 1)

/-- The day number of the first day of the month with a number. -/
def firstDay (k : Int) : Int :=
  daysBeforeYear (k / 12) - daysBeforeYear 1970 + daysBeforeMonth (k / 12) (k % 12).toNat

theorem le_daysInMonth (y : Int) (m : Nat) : 28 ≤ daysInMonth y m := by
  fun_cases daysInMonth y m <;> omega

theorem le_monthLength (k : Int) : 28 ≤ monthLength k :=
  le_daysInMonth _ _

/-- A month begins where the one before it ends, also at the turn of the year. -/
theorem firstDay_succ (k : Int) : firstDay (k + 1) = firstDay k + monthLength k := by
  rw [firstDay, firstDay, monthLength]
  by_cases hlast : k % 12 = 11
  · have hyear : (k + 1) / 12 = k / 12 + 1 := by omega
    have hjanuary : ((k + 1) % 12).toNat = 0 := by omega
    have hdecember : (k % 12).toNat = 11 := by omega
    have hlength := daysBeforeMonth_year (k / 12)
    have hsum : daysBeforeMonth (k / 12) 12 =
        daysBeforeMonth (k / 12) 11 + daysInMonth (k / 12) (11 + 1) := rfl
    have hnone : daysBeforeMonth (k / 12 + 1) 0 = 0 := rfl
    rw [hyear, hjanuary, hdecember, hnone]
    omega
  · have hyear : (k + 1) / 12 = k / 12 := by omega
    have hmonth : ((k + 1) % 12).toNat = (k % 12).toNat + 1 := by omega
    rw [hyear, hmonth, daysBeforeMonth]
    omega

theorem firstDay_add_le {j k : Int} (h : j < k) : firstDay j + monthLength j ≤ firstDay k := by
  obtain ⟨i, rfl⟩ : ∃ i : Nat, k = j + 1 + i := ⟨(k - j - 1).toNat, by omega⟩
  clear h
  induction i with
  | zero =>
    have hnext := firstDay_succ j
    simp only [Int.ofNat_zero, Int.add_zero]
    omega
  | succ i ih =>
    have hnext := firstDay_succ (j + 1 + i)
    have hcast : j + 1 + ((i + 1 : Nat) : Int) = j + 1 + i + 1 := by omega
    rw [hcast]
    omega

/-- A day lies in one month only. -/
theorem eq_of_firstDay_add {j k : Int} {a b : Nat} (ha : a < monthLength j) (hb : b < monthLength k)
    (h : firstDay j + a = firstDay k + b) : j = k ∧ a = b := by
  rcases Int.lt_trichotomy j k with hlt | rfl | hlt
  · have hle := firstDay_add_le hlt
    omega
  · omega
  · have hle := firstDay_add_le hlt
    omega

namespace Date

variable {d e u : Date} {n : Int}

theorem bounds_of_isValid (h : d.isValid = true) :
    1 ≤ d.month ∧ d.month ≤ 12 ∧ 1 ≤ d.day ∧ d.day ≤ daysInMonth d.year d.month := by
  simp only [isValid, Bool.and_eq_true, decide_eq_true_eq] at h
  omega

theorem year_and_month_of_monthNumber (h : d.isValid = true) :
    d.year = d.monthNumber / 12 ∧ d.month = (d.monthNumber % 12).toNat + 1 := by
  have hbounds := bounds_of_isValid h
  simp only [monthNumber]
  omega

theorem monthLength_monthNumber (h : d.isValid = true) :
    monthLength d.monthNumber = daysInMonth d.year d.month := by
  obtain ⟨hyear, hmonth⟩ := year_and_month_of_monthNumber h
  rw [monthLength, ← hyear, ← hmonth]

/-- The day of a date lies in its month, one day after another. -/
theorem dayNumber_eq (h : d.isValid = true) :
    d.day - 1 < monthLength d.monthNumber ∧
      d.dayNumber = firstDay d.monthNumber + (d.day - 1 : Nat) := by
  have hbounds := bounds_of_isValid h
  obtain ⟨hyear, hmonth⟩ := year_and_month_of_monthNumber h
  constructor
  · rw [monthLength_monthNumber h]
    omega
  · have hbefore : d.month - 1 = (d.monthNumber % 12).toNat := by omega
    rw [dayNumber, firstDay, hbefore, ← hyear]
    omega

theorem eq_of_monthNumber (hd : d.isValid = true) (he : e.isValid = true)
    (hmonth : d.monthNumber = e.monthNumber) (hday : d.day = e.day) : d = e := by
  obtain ⟨hdyear, hdmonth⟩ := year_and_month_of_monthNumber hd
  obtain ⟨heyear, hemonth⟩ := year_and_month_of_monthNumber he
  have hyears : d.year = e.year := by rw [hdyear, heyear, hmonth]
  have hmonths : d.month = e.month := by rw [hdmonth, hemonth, hmonth]
  cases d
  cases e
  rw [mk.injEq]
  exact ⟨hyears, hmonths, hday⟩

/-- Counting days from the first of a month leads to the date in that month. -/
theorem ofDayNumber_firstDay {k : Int} {j : Nat} (h : j < monthLength k) :
    (ofDayNumber (firstDay k + j)).monthNumber = k ∧
      (ofDayNumber (firstDay k + j)).day = j + 1 := by
  have hvalid := isValid_ofDayNumber (firstDay k + j)
  obtain ⟨hlt, hnumber⟩ := dayNumber_eq hvalid
  rw [dayNumber_ofDayNumber] at hnumber
  obtain ⟨hmonth, hday⟩ := eq_of_firstDay_add hlt h hnumber.symm
  have hbounds := bounds_of_isValid hvalid
  exact ⟨hmonth, by omega⟩

/-- A date of the calendar is the date of its day. -/
theorem ofDayNumber_dayNumber (h : d.isValid = true) : ofDayNumber d.dayNumber = d := by
  have hbounds := bounds_of_isValid h
  obtain ⟨hlt, hnumber⟩ := dayNumber_eq h
  obtain ⟨hmonth, hday⟩ := ofDayNumber_firstDay hlt
  rw [← hnumber] at hmonth hday
  exact eq_of_monthNumber (isValid_ofDayNumber _) h hmonth (by omega)

/-- The day of a date lies in its year. -/
theorem daysBeforeYear_bounds (h : d.isValid = true) :
    daysBeforeYear d.year ≤ d.dayNumber + daysBeforeYear 1970 ∧
      d.dayNumber + daysBeforeYear 1970 < daysBeforeYear (d.year + 1) := by
  have hyear : yearOf d.dayNumber = d.year := congrArg year (ofDayNumber_dayNumber h)
  have hbounds := yearOf_bounds d.dayNumber
  rwa [hyear] at hbounds

theorem eq_of_dayNumber (hd : d.isValid = true) (he : e.isValid = true)
    (h : d.dayNumber = e.dayNumber) : d = e := by
  rw [← ofDayNumber_dayNumber hd, h, ofDayNumber_dayNumber he]

/-- The next day lies in the same month or is the first of the next one. -/
theorem next_day (hd : d.isValid = true) (he : e.isValid = true)
    (h : e.dayNumber = d.dayNumber + 1) :
    e.monthNumber = d.monthNumber ∧ e.day = d.day + 1 ∧ d.day < monthLength d.monthNumber ∨
      e.monthNumber = d.monthNumber + 1 ∧ e.day = 1 ∧ d.day = monthLength d.monthNumber := by
  obtain ⟨hdlt, hdnumber⟩ := dayNumber_eq hd
  obtain ⟨helt, henumber⟩ := dayNumber_eq he
  have hdbounds := bounds_of_isValid hd
  have hebounds := bounds_of_isValid he
  by_cases hlast : d.day = monthLength d.monthNumber
  · right
    have hfirst : firstDay e.monthNumber + (e.day - 1 : Nat) =
        firstDay (d.monthNumber + 1) + (0 : Nat) := by
      rw [firstDay_succ]
      omega
    have hpos := le_monthLength (d.monthNumber + 1)
    obtain ⟨hmonth, hday⟩ := eq_of_firstDay_add helt (by omega) hfirst
    exact ⟨hmonth, by omega, hlast⟩
  · left
    have hsame : firstDay e.monthNumber + (e.day - 1 : Nat) =
        firstDay d.monthNumber + (d.day : Nat) := by omega
    obtain ⟨hmonth, hday⟩ := eq_of_firstDay_add helt (by omega) hsame
    exact ⟨hmonth, by omega, by omega⟩

/-- `e` lies in the month `n` months after that of `d`, on the same day or on the last one of a
shorter month. -/
structure MonthsAfter (n : Int) (d e : Date) : Prop where
  valid : e.isValid = true
  month : e.monthNumber = d.monthNumber + n
  day : e.day = min d.day (daysInMonth e.year e.month)

theorem monthsAfter_addMonths (h : d.isValid = true) (n : Int) :
    MonthsAfter n d (d.addMonths n) := by
  have hyear : (d.addMonths n).year = (d.monthNumber + n) / 12 := rfl
  have hmonth : (d.addMonths n).month = ((d.monthNumber + n) % 12).toNat + 1 := rfl
  have hday : (d.addMonths n).day =
      min d.day (daysInMonth (d.addMonths n).year (d.addMonths n).month) := rfl
  have hbounds := bounds_of_isValid h
  have hlength := le_daysInMonth (d.addMonths n).year (d.addMonths n).month
  refine ⟨?_, ?_, hday⟩
  · simp only [isValid, Bool.and_eq_true, decide_eq_true_eq]
    omega
  · rw [monthNumber, hyear, hmonth]
    omega

theorem monthsAfter_iff_coordinates (he : e.isValid = true) :
    MonthsAfter n d e ↔ e.monthNumber = d.monthNumber + n ∧
      e.day = min d.day (monthLength (d.monthNumber + n)) := by
  constructor
  · intro h
    rw [← h.month, monthLength_monthNumber he]
    exact ⟨rfl, h.day⟩
  · rintro ⟨hmonth, hday⟩
    rw [← hmonth, monthLength_monthNumber he] at hday
    exact ⟨he, hmonth, hday⟩

/-- The year, the month and the day of the date some months later. -/
theorem monthsAfter_iff_fields (he : e.isValid = true) :
    MonthsAfter n d e ↔ e.year = (d.monthNumber + n) / 12 ∧
      (e.month : Int) = (d.monthNumber + n) % 12 + 1 ∧
      e.day = min d.day (monthLength (d.monthNumber + n)) := by
  have hbounds := bounds_of_isValid he
  rw [monthsAfter_iff_coordinates he, ← and_assoc]
  refine and_congr_left fun _ => ?_
  simp only [monthNumber]
  omega

/-- Adding months to the day before a date moves the date too, unless a month is too short. -/
theorem monthsAfter_iff_of_previous (hu : u.isValid = true) (hd : d.isValid = true)
    (he : e.isValid = true) (hnext : d.dayNumber = u.dayNumber + 1)
    (h : e.dayNumber = (u.addMonths n).dayNumber + 1) :
    MonthsAfter n d e ↔
      if d.day = 1 then monthLength (d.monthNumber - 1 + n) ≤ monthLength (d.monthNumber - 1)
      else d.day ≤ monthLength (d.monthNumber + n) := by
  have hadd := monthsAfter_addMonths hu n
  obtain ⟨hmonth, hday⟩ := (monthsAfter_iff_coordinates hadd.valid).mp hadd
  have hmoved := next_day hadd.valid he h
  have hubounds := bounds_of_isValid hu
  rw [hmonth] at hmoved
  rw [monthsAfter_iff_coordinates he]
  rcases next_day hu hd hnext with ⟨hsame, hdday, -⟩ | ⟨hturn, hdday, hlast⟩
  · rw [if_neg (by omega), hsame]
    omega
  · have hbefore : d.monthNumber - 1 = u.monthNumber := by omega
    have hlength := le_monthLength (d.monthNumber + n)
    rw [if_pos hdday, hbefore]
    omega

/-- Adding months to the day after a date moves the date too, unless a month is too short. -/
theorem monthsAfter_iff_of_next (hu : u.isValid = true) (hd : d.isValid = true)
    (he : e.isValid = true) (hnext : u.dayNumber = d.dayNumber + 1)
    (h : (u.addMonths n).dayNumber = e.dayNumber + 1) :
    MonthsAfter n d e ↔
      if d.day = monthLength d.monthNumber then
        monthLength (d.monthNumber + n) ≤ monthLength d.monthNumber
      else d.day < monthLength (d.monthNumber + n) := by
  have hadd := monthsAfter_addMonths hu n
  obtain ⟨hmonth, hday⟩ := (monthsAfter_iff_coordinates hadd.valid).mp hadd
  have hmoved := next_day he hadd.valid h
  have hdbounds := bounds_of_isValid hd
  have hebounds := bounds_of_isValid he
  have hlength := le_monthLength (u.monthNumber + n)
  rw [monthsAfter_iff_coordinates he]
  rcases next_day hd hu hnext with ⟨hsame, huday, hinside⟩ | ⟨hturn, huday, hlast⟩
  · rw [if_neg (by omega), ← hsame]
    omega
  · have htarget : e.monthNumber = d.monthNumber + n := by omega
    rw [htarget] at hmoved
    rw [if_pos hlast, htarget]
    omega

/-- The date `d` moves by `n` months of the calendar when they are added to `u`, which is the same
date or one next to it: neither of the two loses a day to a shorter month that the other keeps. -/
def MovesAlong (n : Int) (u d : Date) : Prop :=
  u = d ∨
    d.dayNumber = u.dayNumber + 1 ∧
      (if d.day = 1 then monthLength (d.monthNumber - 1 + n) ≤ monthLength (d.monthNumber - 1)
        else d.day ≤ monthLength (d.monthNumber + n)) ∨
    u.dayNumber = d.dayNumber + 1 ∧
      (if d.day = monthLength d.monthNumber then
        monthLength (d.monthNumber + n) ≤ monthLength d.monthNumber
      else d.day < monthLength (d.monthNumber + n))

instance (n : Int) (u d : Date) : Decidable (MovesAlong n u d) :=
  inferInstanceAs (Decidable (_ ∨ _ ∧ ite .. ∨ _ ∧ ite ..))

theorem monthsAfter_iff_movesAlong (hu : u.isValid = true) (hd : d.isValid = true)
    (he : e.isValid = true) (hlow : u.dayNumber - 1 ≤ d.dayNumber)
    (hhigh : d.dayNumber ≤ u.dayNumber + 1)
    (h : e.dayNumber = (u.addMonths n).dayNumber + (d.dayNumber - u.dayNumber)) :
    MonthsAfter n d e ↔ MovesAlong n u d := by
  rw [MovesAlong]
  rcases Int.lt_trichotomy u.dayNumber d.dayNumber with hlt | heq | hlt
  · have hprevious : d.dayNumber = u.dayNumber + 1 := by omega
    have hne : u ≠ d := by
      rintro rfl
      omega
    have hnot : u.dayNumber ≠ d.dayNumber + 1 := by omega
    rw [or_iff_right hne, or_iff_left (fun hnext => hnot hnext.1), and_iff_right hprevious]
    exact monthsAfter_iff_of_previous hu hd he hprevious (h.trans (by omega))
  · obtain rfl : u = d := eq_of_dayNumber hu hd heq
    obtain rfl : e = u.addMonths n :=
      eq_of_dayNumber he (monthsAfter_addMonths hu n).valid (by omega)
    exact iff_of_true (monthsAfter_addMonths hu n) (Or.inl rfl)
  · have hnext : u.dayNumber = d.dayNumber + 1 := by omega
    have hne : u ≠ d := by
      rintro rfl
      omega
    have hnot : d.dayNumber ≠ u.dayNumber + 1 := by omega
    rw [or_iff_right hne, or_iff_right (fun hprevious => hnot hprevious.1), and_iff_right hnext]
    exact monthsAfter_iff_of_next hu hd he hnext (by omega)

end Date

end RecordLogic.Time
