import RecordLogic.Proofs.Time.Month
import RecordLogic.Time.Zone

namespace RecordLogic.Time

/-- The first second of a year. -/
def newYear (y : Int) : Int :=
  86400 * (daysBeforeYear y - daysBeforeYear 1970)

/-- The year that a reading lies in. -/
def yearOfReading (r : Int) : Int :=
  Date.yearOf (r / 86400)

theorem newYear_succ_le {y z : Int} (h : y < z) : newYear (y + 1) ≤ newYear z := by
  simp only [newYear, daysBeforeYear]
  omega

theorem newYear_bounds (r : Int) :
    newYear (yearOfReading r) ≤ r ∧ r < newYear (yearOfReading r + 1) := by
  have hbounds := Date.yearOf_bounds (r / 86400)
  simp only [newYear, yearOfReading]
  omega

theorem newYear_eq (y : Int) : newYear y = 86400 * firstDay (12 * y) := by
  have hyear : 12 * y / 12 = y := by omega
  have hjanuary : (12 * y % 12).toNat = 0 := by omega
  have hnone : daysBeforeMonth y 0 = 0 := rfl
  rw [newYear, firstDay, hyear, hjanuary, hnone, Int.ofNat_zero, Int.add_zero]

/-- The change falls into every year, two days or more from both of its ends. -/
def Changeover.Inside (c : Changeover) : Prop :=
  ∀ y, newYear y + 172_800 ≤ c.reading y ∧ c.reading y + 172_800 ≤ newYear (y + 1)

/-- A clock that is put forward and back once a year: offsets of less than a day, changes away from
the turn of the year, and always the same one first. A summer that comes first is longer than the
gap and the overlap together. -/
structure Seasons (standard summer : Int) (start finish : Changeover) : Prop where
  standard_lt : standard.natAbs < 86400
  summer_lt : summer.natAbs < 86400
  forward : standard < summer
  forward_le : summer ≤ standard + 86400
  start_inside : start.Inside
  finish_inside : finish.Inside
  apart : (∀ y, start.reading y + 2 * (summer - standard) ≤ finish.reading y) ∨
    ∀ y, finish.reading y < start.reading y

namespace Zone

/-- The offset is fixed or follows two changes a year. -/
def Regular : Zone → Prop
  | fixed _ => True
  | seasonal standard summer start finish => Seasons standard summer start finish

/-- The clock is put forward over this reading or from it. -/
def Skipped (z : Zone) (r : Int) : Prop :=
  match z with
  | fixed _ => False
  | seasonal standard summer start _ =>
    let jump := start.reading (yearOfReading r)
    jump ≤ r ∧ r < jump + (summer - standard)

/-- The clock is put forward over this reading, and not just to it or from it. -/
def InGap (z : Zone) (r : Int) : Prop :=
  match z with
  | fixed _ => False
  | seasonal standard summer start _ =>
    let jump := start.reading (yearOfReading r)
    jump < r ∧ r < jump + (summer - standard)

/-- The clock is put back over this reading, to it or from it. -/
def InOverlap (z : Zone) (r : Int) : Prop :=
  match z with
  | fixed _ => False
  | seasonal standard summer _ finish =>
    let back := finish.reading (yearOfReading r)
    back - (summer - standard) ≤ r ∧ r ≤ back

instance (z : Zone) (r : Int) : Decidable (z.InGap r) :=
  match z with
  | fixed _ => inferInstanceAs (Decidable False)
  | seasonal _ _ _ _ => inferInstanceAs (Decidable (_ ∧ _))

instance (z : Zone) (r : Int) : Decidable (z.InOverlap r) :=
  match z with
  | fixed _ => inferInstanceAs (Decidable False)
  | seasonal _ _ _ _ => inferInstanceAs (Decidable (_ ∧ _))

/-- The clock shows this reading at a time of this offset. -/
def InForce (z : Zone) (r offset : Int) : Prop :=
  match z with
  | fixed only => offset = only
  | seasonal standard summer start finish =>
    let jump := start.reading (yearOfReading r)
    let back := finish.reading (yearOfReading r)
    let advance := summer - standard
    if jump ≤ back then
      offset = summer ∧ jump + advance ≤ r ∧ r < back ∨
        offset = standard ∧ (r < jump ∨ back - advance ≤ r)
    else
      offset = standard ∧ back - advance ≤ r ∧ r < jump ∨
        offset = summer ∧ (r < back ∨ jump + advance ≤ r)

variable {z : Zone} {r s offset offset' : Int}

/-- The offset at an instant, told by the local clock instead of the universal one. The two may be
in different years; then no change is near. -/
theorem offsetAt_eq_iff (h : z.Regular) (u offset : Int) :
    z.offsetAt u = offset ↔ z.InForce (u + offset) offset := by
  cases z with
  | fixed only => exact eq_comm
  | seasonal standard summer start finish =>
    obtain ⟨hstandard, hsummer, hforward, hmost, hstart, hfinish, hapart⟩ := h
    have huniversal : Date.yearOf (u / 86400) = yearOfReading u := rfl
    have hu := newYear_bounds u
    have hr := newYear_bounds (u + offset)
    simp only [offsetAt, InForce, huniversal, Bool.and_eq_true, decide_eq_true_eq]
    generalize yearOfReading u = y at hu ⊢
    generalize yearOfReading (u + offset) = x at hr ⊢
    have hyears : y = x ∨ newYear (y + 1) ≤ newYear x ∨ newYear (x + 1) ≤ newYear y := by
      rcases Int.lt_trichotomy y x with hlt | heq | hlt
      · exact Or.inr (Or.inl (newYear_succ_le hlt))
      · exact Or.inl heq
      · exact Or.inr (Or.inr (newYear_succ_le hlt))
    have hjump := hstart y
    have hjump' := hstart x
    have hback := hfinish y
    have hback' := hfinish x
    rcases hapart with hapart | hapart
    · have hy := hapart y
      have hx := hapart x
      rw [if_pos (show start.reading y - standard ≤ finish.reading y - summer by omega),
        if_pos (show start.reading x ≤ finish.reading x by omega)]
      rcases hyears with rfl | hle | hle <;> split <;> omega
    · have hy := hapart y
      have hx := hapart x
      rw [if_neg (show ¬start.reading y - standard ≤ finish.reading y - summer by omega),
        if_neg (show ¬start.reading x ≤ finish.reading x by omega)]
      rcases hyears with rfl | hle | hle <;> split <;> omega

/-- The clock shows all readings but those that it is put forward over. -/
theorem exists_inForce_iff (h : z.Regular) (r : Int) :
    (∃ offset, z.InForce r offset) ↔ ¬z.Skipped r := by
  cases z with
  | fixed only => exact iff_of_true ⟨only, rfl⟩ id
  | seasonal standard summer start finish =>
    obtain ⟨-, -, hforward, -, -, -, hapart⟩ := h
    have hyear := hapart.imp (· (yearOfReading r)) (· (yearOfReading r))
    simp only [InForce, Skipped]
    generalize yearOfReading r = y at hyear ⊢
    constructor
    · rintro ⟨offset, hforce⟩
      split at hforce <;> omega
    · intro hshown
      split
      · by_cases hsummer : start.reading y + (summer - standard) ≤ r ∧ r < finish.reading y
        · exact ⟨summer, Or.inl ⟨rfl, hsummer⟩⟩
        · exact ⟨standard, Or.inr ⟨rfl, by omega⟩⟩
      · by_cases hstandard : finish.reading y - (summer - standard) ≤ r ∧ r < start.reading y
        · exact ⟨standard, Or.inl ⟨rfl, hstandard⟩⟩
        · exact ⟨summer, Or.inr ⟨rfl, by omega⟩⟩

theorem offsetOf?_eq_none_iff (z : Zone) (r : Int) : z.offsetOf? r = none ↔ z.InGap r := by
  cases z with
  | fixed only => simp [offsetOf?, InGap]
  | seasonal standard summer start finish =>
    have hyear : Date.yearOf (r / 86400) = yearOfReading r := rfl
    simp only [offsetOf?, InGap, hyear, Bool.and_eq_true, decide_eq_true_eq]
    split
    · rename_i hgap
      simp [hgap]
    · rename_i hgap
      simp only [hgap, iff_false]
      split <;> split <;> simp

/-- A reading that the clock shows is given the offset at which it shows it, unless it is shown
twice. -/
theorem offsetOf?_of_inForce (h : z.Regular) (hforce : z.InForce r offset)
    (hoverlap : ¬z.InOverlap r) : z.offsetOf? r = some offset := by
  cases z with
  | fixed only => exact congrArg some hforce.symm
  | seasonal standard summer start finish =>
    obtain ⟨-, -, hforward, -, -, -, hapart⟩ := h
    have hyear : Date.yearOf (r / 86400) = yearOfReading r := rfl
    simp only [InForce] at hforce
    simp only [InOverlap] at hoverlap
    simp only [offsetOf?, hyear, Bool.and_eq_true, decide_eq_true_eq]
    generalize yearOfReading r = y at hforce hoverlap ⊢
    rcases hapart with hapart | hapart
    · have hy := hapart y
      rw [if_pos (by omega)] at hforce
      rw [if_neg (by omega), if_pos (by omega)]
      rcases hforce with ⟨rfl, hsummer⟩ | ⟨rfl, hstandard⟩
      · rw [if_pos (by omega)]
      · rw [if_neg (by omega)]
    · have hy := hapart y
      rw [if_neg (by omega)] at hforce
      rw [if_neg (by omega), if_neg (by omega)]
      rcases hforce with ⟨rfl, hstandard⟩ | ⟨rfl, hsummer⟩
      · rw [if_pos (by omega)]
      · rw [if_neg (by omega)]

/-- Readings that are shown once come in the order of time. -/
theorem sub_le_of_inForce (h : z.Regular) (hyear : yearOfReading r = yearOfReading s) (hle : r ≤ s)
    (hr : z.InForce r offset) (hs : z.InForce s offset') (hoverlap : ¬z.InOverlap r) :
    r - offset ≤ s - offset' := by
  cases z with
  | fixed only =>
    obtain rfl : offset = only := hr
    obtain rfl : offset' = offset := hs
    omega
  | seasonal standard summer start finish =>
    obtain ⟨-, -, hforward, -, -, -, hapart⟩ := h
    simp only [InForce, hyear] at hr hs
    simp only [InOverlap, hyear] at hoverlap
    generalize yearOfReading s = y at hr hs hoverlap
    rcases hapart with hapart | hapart
    · have hy := hapart y
      rw [if_pos (by omega)] at hr hs
      omega
    · have hy := hapart y
      rw [if_neg (by omega)] at hr hs
      omega

end Zone

namespace Changeover

/-- A change in a month from February to November, within a day. -/
def isOrdinary (c : Changeover) : Bool :=
  2 ≤ c.month && c.month ≤ 11 && 1 ≤ c.week && c.week ≤ 5 && c.weekday ≤ 6 && 0 ≤ c.second &&
    c.second ≤ 86400

variable {c : Changeover}

/-- The day of a change lies in its month. -/
theorem exists_day (h : c.isOrdinary = true) (y : Int) :
    ∃ i : Nat, c.day y = firstDay (12 * y + (c.month - 1)) + i ∧
      i < monthLength (12 * y + (c.month - 1)) := by
  simp only [isOrdinary, Bool.and_eq_true, decide_eq_true_eq] at h
  have hvalid : Date.isValid ⟨y, c.month, 1⟩ = true := by
    have hlength := le_daysInMonth y c.month
    simp only [Date.isValid, Bool.and_eq_true, decide_eq_true_eq]
    omega
  have hfirst : Date.dayNumber ⟨y, c.month, 1⟩ = firstDay (12 * y + (c.month - 1)) := by
    rw [(Date.dayNumber_eq hvalid).2]
    exact Int.add_zero _
  have hlength : monthLength (12 * y + (c.month - 1)) = daysInMonth y c.month :=
    Date.monthLength_monthNumber hvalid
  have hle := le_daysInMonth y c.month
  rw [hlength, day, hfirst]
  generalize firstDay (12 * y + (c.month - 1)) = first
  generalize daysInMonth y c.month = length at hle ⊢
  split
  · rename_i hinside
    refine ⟨((c.weekday - Time.weekday first) % 7 + 7 * (c.week - 1)).toNat, ?_, ?_⟩ <;> omega
  · rename_i houtside
    refine ⟨((c.weekday - Time.weekday first) % 7 + 7 * (c.week - 1) - 7).toNat, ?_, ?_⟩ <;> omega

theorem reading_bounds (h : c.isOrdinary = true) (y : Int) :
    86400 * firstDay (12 * y + (c.month - 1)) ≤ c.reading y ∧
      c.reading y ≤ 86400 * firstDay (12 * y + c.month) := by
  obtain ⟨i, hday, hi⟩ := exists_day h y
  have hnext := firstDay_succ (12 * y + (c.month - 1))
  have hmonth : 12 * y + ((c.month : Int) - 1) + 1 = 12 * y + c.month := by omega
  simp only [isOrdinary, Bool.and_eq_true, decide_eq_true_eq] at h
  rw [hmonth] at hnext
  rw [reading, hday]
  omega

theorem inside_of_isOrdinary (h : c.isOrdinary = true) : c.Inside := by
  intro y
  obtain ⟨hlow, hhigh⟩ := reading_bounds h y
  simp only [isOrdinary, Bool.and_eq_true, decide_eq_true_eq] at h
  have hjanuary := firstDay_add_le (j := 12 * y) (k := 12 * y + (c.month - 1)) (by omega)
  have hdecember := firstDay_add_le (j := 12 * y + c.month) (k := 12 * (y + 1)) (by omega)
  have hlength := le_monthLength (12 * y)
  have hlength' := le_monthLength (12 * y + c.month)
  rw [newYear_eq, newYear_eq]
  omega

end Changeover

/-- Rules whose changes lie a month or more apart, and none of them in January or December. -/
theorem seasons_of_isOrdinary {standard summer : Int} {start finish : Changeover}
    (hstandard : standard.natAbs < 86400) (hsummer : summer.natAbs < 86400)
    (hforward : standard < summer) (hmost : summer ≤ standard + 86400)
    (hstart : start.isOrdinary = true) (hfinish : finish.isOrdinary = true)
    (hapart : start.month + 1 < finish.month ∨ finish.month + 1 < start.month) :
    Seasons standard summer start finish := by
  refine ⟨hstandard, hsummer, hforward, hmost, Changeover.inside_of_isOrdinary hstart,
    Changeover.inside_of_isOrdinary hfinish, hapart.imp (fun hmonths y => ?_) fun hmonths y => ?_⟩
  · have hlow := (Changeover.reading_bounds hfinish y).1
    have hhigh := (Changeover.reading_bounds hstart y).2
    have hmonth := firstDay_add_le (j := 12 * y + start.month)
      (k := 12 * y + (finish.month - 1)) (by omega)
    have hlength := le_monthLength (12 * y + start.month)
    omega
  · have hlow := (Changeover.reading_bounds hstart y).1
    have hhigh := (Changeover.reading_bounds hfinish y).2
    have hmonth := firstDay_add_le (j := 12 * y + finish.month)
      (k := 12 * y + (start.month - 1)) (by omega)
    have hlength := le_monthLength (12 * y + finish.month)
    omega

/-- Five hours west of universal time, and four from the second Sunday of March to the first Sunday
of November; the clock is changed at two o'clock. -/
def Zone.eastern : Zone :=
  .seasonal (-18000) (-14400) ⟨3, 2, 0, 7200⟩ ⟨11, 1, 0, 7200⟩

theorem Zone.regular_eastern : eastern.Regular :=
  seasons_of_isOrdinary (by decide) (by decide) (by decide) (by decide) (by decide) (by decide)
    (by decide)

end RecordLogic.Time
