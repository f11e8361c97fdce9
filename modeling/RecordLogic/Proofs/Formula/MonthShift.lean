import RecordLogic.Proofs.Formula.DateShift
import RecordLogic.Proofs.Time.Local

namespace RecordLogic.Formula

open Time (ClockTime Date Instant Zone monthLength)

variable {zone : Zone} {u v w : Value} {d e : Instant} {n offset : Int}

theorem shift?_months_eq_some_iff :
    shift? .months d n = some e ↔ (d.addMonths n).inRange = true ∧ d.addMonths n = e := by
  have hone : DateUnit.months.calendarMonths * n = n := Int.one_mul n
  rw [shift?_of_months rfl, hone, Option.ite_none_right_eq_some, Option.some.injEq]

theorem earlier_of_same_time (m n : Nat) (time : Int × Nat) :
    earlier (m, time) (n, time) = decide (m < n) := by
  simp [earlier]

/-- The months between an instant and one some months later are these months, without the last one
if its day is cut short. -/
theorem monthSpan_addMonths (d : Instant) (n : Int) :
    monthSpan .utc d (d.addMonths n) =
      if 0 < n ∧ (d.addMonths n).date.day < d.date.day then n - 1 else n := by
  have hafter : Date.MonthsAfter n d.date (d.addMonths n).date := by
    rw [Instant.date_addMonths]
    exact Date.monthsAfter_addMonths d.isValid_date n
  have hmonths : (d.addMonths n).date.monthNumber - d.date.monthNumber = n := by
    have hmonth := hafter.month
    omega
  have hday : ¬d.date.day < (d.addMonths n).date.day := by
    have hmin := hafter.day
    omega
  have htime : (d.addMonths n).secondOfDay = d.secondOfDay := d.secondOfDay_onDay _
  have hnanos : (d.addMonths n).subNanos = d.subNanos := rfl
  simp only [monthSpan, placeInMonth, Zone.dateOf_utc, Zone.secondOf_utc, hmonths, htime, hnanos,
    earlier_of_same_time, hday, decide_false, Bool.and_false, Bool.false_eq_true, if_false,
    Bool.and_eq_true, decide_eq_true_eq]

/-- With universal time as local time, a shift by months keeps the time of day and moves the date by
months of the calendar; the difference is the shift, less one month that a shorter month has cut
short. A year is twelve months. -/
theorem dateAdd_months_calendar (hmonths : DateUnit.named? u = some .months)
    (hyears : DateUnit.named? w = some .years) (hv : v.asDate? .utc = some d)
    (hd : d.inRange = true) (n : Int) :
    let add (k : Int) (x : Value) := Builtin.dateAdd.apply .utc [v, .number (.ofInt k), x]
    (∀ e, add n u = .ok (.date e) →
      e.secondOfDay = d.secondOfDay ∧ e.nanos = d.nanos ∧ e.leap = d.leap ∧
        Date.MonthsAfter n d.date e.date ∧
        Builtin.dateDiff.apply .utc [v, .date e, u] =
          .ok (.number (.ofInt (if 0 < n ∧ e.date.day < d.date.day then n - 1 else n)))) ∧
      add n w = add (12 * n) u := by
  intro add
  constructor
  · intro e he
    rw [dateAdd_eq_date_iff hmonths hv hd, shift?_months_eq_some_iff] at he
    obtain ⟨-, rfl⟩ := he
    refine ⟨d.secondOfDay_onDay _, rfl, rfl, ?_, ?_⟩
    · rw [Instant.date_addMonths]
      exact Date.monthsAfter_addMonths d.isValid_date n
    · have hdiff := dateDiff_of_some [v, .date (d.addMonths n), u] hmonths hv rfl
      have hone : span .utc .months d (d.addMonths n) = monthSpan .utc d (d.addMonths n) :=
        Int.tdiv_one _
      rw [hone, monthSpan_addMonths] at hdiff
      exact hdiff
  · have hyear : shift? .years d n = shift? .months d (12 * n) := by
      have hone : DateUnit.months.calendarMonths * (12 * n) = 12 * n := Int.one_mul _
      rw [shift?_of_months rfl, shift?_of_months rfl, hone]
      rfl
    have hleft : add n w = .ok (((shift? .years d n).map .date).getD .undefined) :=
      dateAdd_eq hyears hv hd n
    have hright : add (12 * n) u =
        .ok (((shift? .months d (12 * n)).map .date).getD .undefined) :=
      dateAdd_eq hmonths hv hd (12 * n)
    rw [hleft, hright, hyear]

/-- The leap second at the end of 1972 goes to the last day of a February. -/
theorem dateAdd_months_calendar_cut_short :
    let u : Value := .text "months"
    let w : Value := .text "Year"
    let d : Instant := .ofParts 94694399 250_000_000 true
    let e : Instant := .ofParts 99791999 250_000_000 true
    DateUnit.named? u = some .months ∧ DateUnit.named? w = some .years ∧
      (Value.date d).asDate? .utc = some d ∧ d.inRange = true ∧ d.date = ⟨1972, 12, 31⟩ ∧
      Builtin.dateAdd.apply .utc [.date d, .number (.ofInt 2), u] = .ok (.date e) ∧
      e.leap = d.leap ∧ Date.MonthsAfter 2 d.date e.date ∧ e.date = ⟨1973, 2, 28⟩ ∧
      Builtin.dateDiff.apply .utc [.date d, .date e, u] = .ok (.number (.ofInt 1)) := by
  intro u w d e
  have hmonths : DateUnit.named? u = some .months := by decide +kernel
  have hyears : DateUnit.named? w = some .years := by decide +kernel
  have hd : d.inRange = true := by decide
  have he : Builtin.dateAdd.apply .utc [.date d, .number (.ofInt 2), u] = .ok (.date e) :=
    (dateAdd_eq_date_iff hmonths rfl hd).mpr (by decide)
  obtain ⟨hshifted, -⟩ := dateAdd_months_calendar (v := .date d) hmonths hyears rfl hd 2
  obtain ⟨-, -, hleap, hafter, hdiff⟩ := hshifted e he
  have hcut : 0 < (2 : Int) ∧ e.date.day < d.date.day := by decide
  rw [if_pos hcut] at hdiff
  exact ⟨hmonths, hyears, rfl, hd, by decide, he, hleap, hafter, by decide, hdiff⟩

theorem number_ofInt_inj {a b : Int} (ha : a.natAbs < 2 ^ 53) :
    (Except.ok (.number (.ofInt a)) : Except EvalError Value) = .ok (.number (.ofInt b)) ↔
      a = b := by
  rw [Except.ok.injEq, Value.number.injEq, Number.ofInt_inj ha]

/-- The date functions show the local date of an instant. -/
theorem dateParts_eq_iff (hoffset : offset.natAbs ≤ 86400) (he : e.inRange = true)
    (year month : Int) (day : Nat) :
    let part (b : Builtin) := b.apply (.fixed offset) [.date e]
    (part .year = .ok (.number (.ofInt year)) ∧ part .month = .ok (.number (.ofInt month)) ∧
        part .day = .ok (.number (.ofInt day))) ↔
      ((Zone.fixed offset).dateOf e).year = year ∧
        (((Zone.fixed offset).dateOf e).month : Int) = month ∧
        ((Zone.fixed offset).dateOf e).day = day := by
  intro part
  have hyear : part .year = .ok (.number (.ofInt ((Zone.fixed offset).dateOf e).year)) := rfl
  have hmonth : part .month = .ok (.number (.ofInt ((Zone.fixed offset).dateOf e).month)) := rfl
  have hday : part .day = .ok (.number (.ofInt ((Zone.fixed offset).dateOf e).day)) := rfl
  obtain ⟨-, hlow, hhigh⟩ := Zone.dayNumber_dateOf_fixed hoffset e
  have hvalid := (Zone.fixed offset).isValid_dateOf e
  have hbounds := Date.bounds_of_isValid hvalid
  have hlength := Time.daysInMonth_le ((Zone.fixed offset).dateOf e).year
    ((Zone.fixed offset).dateOf e).month
  have hsmall : ((Zone.fixed offset).dateOf e).year.natAbs < 2 ^ 53 := by
    rw [Instant.inRange_iff] at he
    have hyears := Date.daysBeforeYear_bounds hvalid
    simp only [Time.daysBeforeYear] at hyears
    omega
  rw [hyear, hmonth, hday, number_ofInt_inj hsmall, number_ofInt_inj (by omega),
    number_ofInt_inj (by omega), Int.natCast_inj]

/-- Months are added to the universal date, and the local date moves by as many days. So the parts
of the result are those of the local date some months later exactly if the local date moves along
with the universal one. -/
theorem dateAdd_months_local_iff (hoffset : offset.natAbs ≤ 86400) {s : String} {date : Date}
    {time : ClockTime} (hs : Time.WritesLocal s date time)
    (hmonths : DateUnit.named? u = some .months)
    (he : Builtin.dateAdd.apply (.fixed offset) [.text s, .number (.ofInt n), u] = .ok (.date e)) :
    let k := date.monthNumber + n
    let part (b : Builtin) := b.apply (.fixed offset) [.date e]
    ∃ d, (Value.text s).asDate? (.fixed offset) = some d ∧
      ((Zone.fixed offset).dateOf e).dayNumber =
        (d.date.addMonths n).dayNumber + (date.dayNumber - d.date.dayNumber) ∧
      ((part .year = .ok (.number (.ofInt (k / 12))) ∧
          part .month = .ok (.number (.ofInt (k % 12 + 1))) ∧
          part .day = .ok (.number (.ofInt (min date.day (monthLength k) : Nat)))) ↔
        Date.MovesAlong n d.date date) := by
  intro k part
  obtain ⟨d, hd, hdate, hrange⟩ := Time.exists_instant_of_writesLocal hoffset hs
  have hv : (Value.text s).asDate? (.fixed offset) = some d := hd
  rw [dateAdd_eq_date_iff hmonths hv hrange, shift?_months_eq_some_iff] at he
  obtain ⟨hrange', rfl⟩ := he
  have hmoved : ((Zone.fixed offset).dateOf (d.addMonths n)).dayNumber =
      (d.date.addMonths n).dayNumber + (date.dayNumber - d.date.dayNumber) := by
    rw [Instant.addMonths, Zone.dayNumber_dateOf_onDay, hdate, d.dayNumber_date]
  refine ⟨d, hv, hmoved, ?_⟩
  have hvalid : date.isValid = true := hdate ▸ (Zone.fixed offset).isValid_dateOf d
  have hvalid' := (Zone.fixed offset).isValid_dateOf (d.addMonths n)
  obtain ⟨-, hlow, hhigh⟩ := Zone.dayNumber_dateOf_fixed hoffset d
  rw [hdate, ← d.dayNumber_date] at hlow hhigh
  have hparts := dateParts_eq_iff hoffset hrange' (k / 12) (k % 12 + 1)
    (min date.day (monthLength k))
  have hmoves := Date.monthsAfter_iff_movesAlong d.isValid_date hvalid hvalid' hlow hhigh hmoved
  rw [Date.monthsAfter_iff_fields hvalid'] at hmoves
  exact hparts.trans hmoves

/-- Eight hours west of universal time the last evening of March is the first of April there, and
goes to the last evening of April. -/
theorem dateAdd_months_local_iff_evening :
    let s := "2024-03-31 20:00"
    let e : Instant := .ofParts 1714536000 0 false
    (-28800 : Int).natAbs ≤ 86400 ∧ Time.WritesLocal s ⟨2024, 3, 31⟩ ⟨20, 0, 0, 0⟩ ∧
      DateUnit.named? (.text "month") = some .months ∧
      Builtin.dateAdd.apply (.fixed (-28800)) [.text s, .number (.ofInt 1), .text "month"] =
        .ok (.date e) ∧
      Date.MovesAlong 1 ⟨2024, 4, 1⟩ ⟨2024, 3, 31⟩ ∧
      Builtin.month.apply (.fixed (-28800)) [.date e] = .ok (.number (.ofInt 4)) ∧
      Builtin.day.apply (.fixed (-28800)) [.date e] = .ok (.number (.ofInt 30)) := by
  intro s e
  have hs : Time.WritesLocal s ⟨2024, 3, 31⟩ ⟨20, 0, 0, 0⟩ :=
    ⟨' ', "20:00".toList, by decide, Or.inr rfl, by decide, by decide⟩
  have hmonths : DateUnit.named? (.text "month") = some .months := by decide +kernel
  have hd : (Value.text s).asDate? (.fixed (-28800)) = some (.ofParts 1711944000 0 false) := by
    decide
  have he : Builtin.dateAdd.apply (.fixed (-28800)) [.text s, .number (.ofInt 1), .text "month"] =
      .ok (.date e) := (dateAdd_eq_date_iff hmonths hd (by decide)).mpr (by decide)
  obtain ⟨d, hd', -, hparts⟩ := dateAdd_months_local_iff (by decide) hs hmonths he
  obtain rfl : Instant.ofParts 1711944000 0 false = d := Option.some.inj (hd.symm.trans hd')
  have hmoves : Date.MovesAlong 1 ⟨2024, 4, 1⟩ ⟨2024, 3, 31⟩ := by decide
  obtain ⟨-, hmonth, hday⟩ := hparts.mpr hmoves
  exact ⟨by decide, hs, hmonths, he, hmoves, hmonth, hday⟩

/-- Five and a half hours east of universal time the last night of January is still the day before
there; a month later that day is the last one of February, and the local date is in March. -/
theorem dateAdd_months_leaves_february :
    let s := "2024-01-31T01:00"
    let e : Instant := .ofParts 1709235000 0 false
    Time.WritesLocal s ⟨2024, 1, 31⟩ ⟨1, 0, 0, 0⟩ ∧
      DateUnit.named? (.text "month") = some .months ∧
      Builtin.dateAdd.apply (.fixed 19800) [.text s, .number (.ofInt 1), .text "month"] =
        .ok (.date e) ∧
      monthLength (Date.monthNumber ⟨2024, 1, 31⟩ + 1) = 29 ∧
      Builtin.month.apply (.fixed 19800) [.date e] = .ok (.number (.ofInt 3)) ∧
      Builtin.day.apply (.fixed 19800) [.date e] = .ok (.number (.ofInt 1)) ∧
      Builtin.day.apply (.fixed 19800) [.date e] ≠ .ok (.number (.ofInt 29)) := by
  intro s e
  have hs : Time.WritesLocal s ⟨2024, 1, 31⟩ ⟨1, 0, 0, 0⟩ :=
    ⟨'T', "01:00".toList, by decide, Or.inl rfl, by decide, by decide⟩
  have hmonths : DateUnit.named? (.text "month") = some .months := by decide +kernel
  have hd : (Value.text s).asDate? (.fixed 19800) = some (.ofParts 1706643000 0 false) := by decide
  have he : Builtin.dateAdd.apply (.fixed 19800) [.text s, .number (.ofInt 1), .text "month"] =
      .ok (.date e) := (dateAdd_eq_date_iff hmonths hd (by decide)).mpr (by decide)
  have hday : Builtin.day.apply (.fixed 19800) [.date e] = .ok (.number (.ofInt 1)) := by rfl
  refine ⟨hs, hmonths, he, by decide, by rfl, hday, ?_⟩
  rw [hday, Ne, number_ofInt_inj (by decide)]
  decide

end RecordLogic.Formula
