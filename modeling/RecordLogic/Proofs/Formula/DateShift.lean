import RecordLogic.Proofs.Formula.DateSpan
import RecordLogic.Proofs.Number.Truncate

namespace RecordLogic.Formula

open Time (Instant)

variable {zone : Time.Zone} {unit : DateUnit} {u v : Value} {d e : Instant} {n s : Int}

namespace DateUnit

theorem le_seconds (h : unit.seconds? = some s) : 60 ≤ s := by
  cases unit <;> cases h <;> decide

theorem le_calendarMonths (unit : DateUnit) : 1 ≤ unit.calendarMonths := by
  cases unit <;> decide

end DateUnit

/-- A shift by a unit of fixed length is checked as a duration and as an instant. -/
theorem shift?_of_seconds (hs : unit.seconds? = some s) (d : Instant) (n : Int) :
    shift? unit d n =
      if (s * n).natAbs ≤ Instant.longestDuration ∧ (d.addSeconds (s * n)).inRange = true then
        some (d.addSeconds (s * n))
      else none := by
  simp only [shift?, hs, Instant.addDuration?]
  by_cases hduration : (s * n).natAbs ≤ Instant.longestDuration
  · simp only [hduration, if_true, true_and, Option.filter_some]
  · simp only [hduration, if_false, false_and, Option.filter_none]

theorem shift?_of_months (h : unit.seconds? = none) (d : Instant) (n : Int) :
    shift? unit d n =
      if (d.addMonths (unit.calendarMonths * n)).inRange = true then
        some (d.addMonths (unit.calendarMonths * n))
      else none := by
  simp only [shift?, h, Option.filter_some]

/-- No instant is so many units away from another one. -/
theorem shift?_eq_none_of_large (hd : d.inRange = true) (hn : 2 ^ 53 ≤ n.natAbs) :
    shift? unit d n = none := by
  cases hs : unit.seconds? with
  | some s =>
    have hlong : 60 * 2 ^ 53 ≤ (s * n).natAbs := by
      have hle := DateUnit.le_seconds hs
      rw [Int.natAbs_mul]
      exact Nat.mul_le_mul (by omega) hn
    rw [shift?_of_seconds hs, if_neg]
    rintro ⟨hduration, -⟩
    simp only [Instant.longestDuration] at hduration
    omega
  | none =>
    have hlong : 1 * 2 ^ 53 ≤ (unit.calendarMonths * n).natAbs := by
      have hle := unit.le_calendarMonths
      rw [Int.natAbs_mul]
      exact Nat.mul_le_mul (by omega) hn
    rw [shift?_of_months hs, if_neg]
    intro hrange
    have hend := Instant.monthNumber_of_inRange hrange
    have hstart := Instant.monthNumber_of_inRange hd
    rw [Instant.date_addMonths, (Time.Date.monthsAfter_addMonths d.isValid_date _).month] at hend
    omega

/-- The whole numbers that doubles do not hold shift no instant, so a call shifts by the number that
it is given. -/
theorem dateAdd_eq (hunit : DateUnit.named? u = some unit) (hv : v.asDate? zone = some d)
    (hd : d.inRange = true) (n : Int) :
    Builtin.dateAdd.apply zone [v, .number (.ofInt n), u] =
      .ok (((shift? unit d n).map .date).getD .undefined) := by
  have hunit' : dateUnit "DATEADD" [v, .number (.ofInt n), u] = .ok unit :=
    dateUnit_of_some "DATEADD" hunit
  have hv' : (Arguments.arg [v, .number (.ofInt n), u] 0).asDate? zone = some d := hv
  have hn : Arguments.number [v, .number (.ofInt n), u] 1 = .ofInt n := rfl
  have hbind := Number.bind_truncate?_ofInt (f := shift? unit d)
    (fun k hk => shift?_eq_none_of_large hd hk) n
  rw [Builtin.apply, dateAdd, hunit', hv', hn, ← hbind]
  cases Number.truncate? (.ofInt n) <;> rfl

theorem dateAdd_eq_date_iff (hunit : DateUnit.named? u = some unit)
    (hv : v.asDate? zone = some d) (hd : d.inRange = true) :
    Builtin.dateAdd.apply zone [v, .number (.ofInt n), u] = .ok (.date e) ↔
      shift? unit d n = some e := by
  rw [dateAdd_eq hunit hv hd]
  cases shift? unit d n <;> simp

theorem span_addSeconds (hs : unit.seconds? = some s) (hleap : d.leap = false) (n : Int) :
    span zone unit d (d.addSeconds (s * n)) = n := by
  have hle := DateUnit.le_seconds hs
  have hne : s * 1_000_000_000 ≠ 0 := by omega
  rw [span, hs]
  simp only
  rw [Instant.elapsed_addSeconds hleap, Int.mul_right_comm]
  exact Int.mul_tdiv_cancel_left n hne

/-- Shifting an instant outside of leap seconds by whole minutes, hours, days or weeks gives the
instant that lies so far away, or is undefined if the duration or that instant is out of range. The
difference is then the shift, and two shifts are one by the sum. -/
theorem dateDiff_dateAdd_fixed (hunit : DateUnit.named? u = some unit)
    (hs : unit.seconds? = some s) (hv : v.asDate? zone = some d) (hd : d.inRange = true)
    (hleap : d.leap = false) (n m : Int) :
    let add (w : Value) (k : Int) := Builtin.dateAdd.apply zone [w, .number (.ofInt k), u]
    (∀ e, add v n = .ok (.date e) →
      Builtin.dateDiff.apply zone [v, .date e, u] = .ok (.number (.ofInt n)) ∧
        (d.Before e ↔ 0 < n) ∧ (e = d ↔ n = 0) ∧
        ∀ f, add (.date e) m = .ok (.date f) → add v (n + m) = .ok (.date f)) ∧
      ∃ t : Instant, t.seconds = d.seconds + s * n ∧ t.nanos = d.nanos ∧ t.leap = false ∧
        add v n = .ok (if (s * n).natAbs ≤ Instant.longestDuration ∧ t.inRange = true then .date t
          else .undefined) := by
  intro add
  have hpos := DateUnit.le_seconds hs
  obtain ⟨hseconds, hnanos, hnone⟩ := Instant.addSeconds_parts hleap (s * n)
  constructor
  · intro e he
    rw [dateAdd_eq_date_iff hunit hv hd, shift?_of_seconds hs, Option.ite_none_right_eq_some] at he
    obtain ⟨⟨-, hrange⟩, he⟩ := he
    obtain rfl : d.addSeconds (s * n) = e := Option.some.inj he
    refine ⟨?_, ?_, ?_, ?_⟩
    · have hdiff := dateDiff_of_some [v, .date (d.addSeconds (s * n)), u] hunit hv rfl
      rwa [span_addSeconds hs hleap] at hdiff
    · rw [Instant.before_addSeconds_iff hleap, mul_pos_iff_of_pos_left (by omega)]
    · rw [Instant.addSeconds_eq_self_iff hleap, mul_eq_zero, or_iff_right (by omega)]
    · intro f hf
      rw [dateAdd_eq_date_iff hunit rfl hrange, shift?_of_seconds hs,
        Option.ite_none_right_eq_some] at hf
      obtain ⟨⟨-, hrange'⟩, hf⟩ := hf
      obtain rfl : (d.addSeconds (s * n)).addSeconds (s * m) = f := Option.some.inj hf
      rw [Instant.addSeconds_addSeconds hleap, ← Int.mul_add] at hrange' ⊢
      have hduration := Instant.natAbs_le_longestDuration hd hleap hrange'
      apply (dateAdd_eq_date_iff hunit hv hd).mpr
      rw [shift?_of_seconds hs, if_pos ⟨hduration, hrange'⟩]
  · refine ⟨d.addSeconds (s * n), hseconds, hnanos, hnone, ?_⟩
    have hresult : add v n = .ok (((shift? unit d n).map .date).getD .undefined) :=
      dateAdd_eq hunit hv hd n
    rw [hresult, shift?_of_seconds hs]
    split <;> rfl

/-- Two shifts from half a second before 1970, back over the leap year 1968 and forth again. -/
theorem dateDiff_dateAdd_fixed_weeks :
    let u : Value := .text "Weeks"
    let d : Instant := .ofParts (-1) 500_000_000 false
    let e : Instant := .ofParts (-60480001) 500_000_000 false
    let f : Instant := .ofParts 60479999 500_000_000 false
    DateUnit.named? u = some .weeks ∧ DateUnit.weeks.seconds? = some 604800 ∧
      (Value.date d).asDate? .utc = some d ∧ d.inRange = true ∧ d.leap = false ∧
      Builtin.dateAdd.apply .utc [.date d, .number (.ofInt (-100)), u] = .ok (.date e) ∧
      Builtin.dateDiff.apply .utc [.date d, .date e, u] = .ok (.number (.ofInt (-100))) ∧
      Builtin.dateAdd.apply .utc [.date d, .number (.ofInt 100), u] = .ok (.date f) := by
  intro u d e f
  have hunit : DateUnit.named? u = some .weeks := by decide +kernel
  have hd : d.inRange = true := by decide
  have hv : (Value.date d).asDate? .utc = some d := rfl
  obtain ⟨hshifted, -⟩ := dateDiff_dateAdd_fixed hunit rfl hv hd (by decide) (-100) 200
  have he : Builtin.dateAdd.apply .utc [.date d, .number (.ofInt (-100)), u] = .ok (.date e) :=
    (dateAdd_eq_date_iff hunit rfl hd).mpr (by decide)
  have hf : Builtin.dateAdd.apply .utc [.date e, .number (.ofInt 200), u] = .ok (.date f) :=
    (dateAdd_eq_date_iff hunit rfl (by decide)).mpr (by decide)
  obtain ⟨hdiff, -, -, hsum⟩ := hshifted e he
  exact ⟨hunit, rfl, hv, hd, by decide, he, hdiff, hsum f hf⟩

end RecordLogic.Formula
