import RecordLogic.Formula.Builtin
import RecordLogic.Proofs.Time.DateLike
import RecordLogic.Proofs.Time.WallClock

namespace RecordLogic.Formula

open Time (ClockTime Date IsClock IsDate IsField Moment Zone)

variable {z : Zone} {s : String} {date : Date} {time : ClockTime}

/-- The functions that show a field of the local date, with the field that each of them shows. -/
def dateParts : List (Builtin × (Date → Int)) :=
  [(.year, (·.year)), (.month, (·.month)), (.day, (·.day))]

theorem apply_datePart {f : Builtin} {part : Date → Int} (hf : (f, part) ∈ dateParts) (z : Zone)
    (v : Value) : f.apply z [v] = .ok (((v.asDate? z).map fun t =>
      .number (.ofInt (part (z.dateOf t)))).getD .undefined) := by
  have hpart : f.apply z [v] = .ok (datePart z part [v]) := by
    simp only [dateParts, List.mem_cons, Prod.mk.injEq, List.not_mem_nil, or_false] at hf
    rcases hf with ⟨rfl, rfl⟩ | ⟨rfl, rfl⟩ | ⟨rfl, rfl⟩ <;> rfl
  have harg : Arguments.arg [v] 0 = v := rfl
  rw [hpart, datePart, harg]
  cases v.asDate? z <;> rfl

/-- Where a clock is put forward and back once a year, or not at all, a text of a local date and
time that the clock shows once keeps its fields: those of its date in the date functions, and those
of its time on the clock at the instant that it denotes. A text of a date and time that the clock is
put forward over denotes nothing, and its date has no fields. -/
theorem local_text_keeps_fields (hz : z.Regular)
    (hs : Moment.Written (Text.trimmed s.toList) (.wall date time)) :
    let reading := 86400 * date.dayNumber + time.ofDay
    ((∃ t, z.readingOf t = reading) → ¬z.InOverlap reading →
      (∃ e, (Value.text s).asDate? z = some e ∧ z.dateOf e = date ∧ z.clockOf e = time) ∧
        ∀ f ∈ dateParts, f.1.apply z [.text s] = .ok (.number (.ofInt (f.2 date)))) ∧
      (z.InGap reading → (Value.text s).asDate? z = none ∧
        ∀ f ∈ dateParts, f.1.apply z [.text s] = .ok .undefined) := by
  intro reading
  obtain ⟨haccepted, hdate, htime, hnanos⟩ := hs.of_wall
  have hread : (Value.text s).asDate? z = z.instantOf? reading time.nanos time.isLeap :=
    Time.dateLike?_of_accepted z haccepted
  constructor
  · intro hshown hoverlap
    obtain ⟨e, he, hdays, hclock⟩ :=
      Zone.exists_instantOf? hz hdate htime hnanos hshown hoverlap
    rw [he] at hread
    refine ⟨⟨e, hread, hdays, hclock⟩, fun f hf => ?_⟩
    rw [apply_datePart hf, hread, Option.map_some, hdays]
    rfl
  · intro hgap
    have hnone : (Value.text s).asDate? z = none := by
      rw [hread, Zone.instantOf?, (Zone.offsetOf?_eq_none_iff z reading).mpr hgap]
      rfl
    refine ⟨hnone, fun f hf => ?_⟩
    rw [apply_datePart hf, hnone]
    rfl

/-- The night of March in which the clock is put forward over the hour from two to three. -/
theorem local_text_keeps_fields_spring :
    let s := "2024-03-10T03:00"
    let gap := "2024-03-10 02:59:59"
    Zone.eastern.Regular ∧
      Moment.Written (Text.trimmed s.toList) (.wall ⟨2024, 3, 10⟩ ⟨3, 0, 0, 0⟩) ∧
      (∃ e, (Value.text s).asDate? .eastern = some e ∧ Zone.eastern.dateOf e = ⟨2024, 3, 10⟩ ∧
        Zone.eastern.clockOf e = ⟨3, 0, 0, 0⟩) ∧
      Builtin.day.apply .eastern [.text s] = .ok (.number (.ofInt 10)) ∧
      Moment.Written (Text.trimmed gap.toList) (.wall ⟨2024, 3, 10⟩ ⟨2, 59, 59, 0⟩) ∧
      (Value.text gap).asDate? .eastern = none ∧
      Builtin.year.apply .eastern [.text gap] = .ok .undefined := by
  intro s gap
  have hdate : IsDate ['2', '0', '2', '4', '-', '0', '3', '-', '1', '0'] ⟨2024, 3, 10⟩ :=
    Time.isDate_of_datePrefix? (by decide)
  have hcs : Text.trimmed s.toList =
      ['2', '0', '2', '4', '-', '0', '3', '-', '1', '0'] ++ 'T' :: ['0', '3', ':', '0', '0'] := by
    decide
  have hclock : IsClock IsField ['0', '3', ':', '0', '0'] ⟨3, 0, 0, 0⟩ :=
    Or.inl (@Time.IsShortClock.mk IsField ['0', '3'] ['0', '0'] _ _
      (.of_two (by decide) (by decide)) (.of_two (by decide) (by decide)) (by decide))
  have hs : Moment.Written (Text.trimmed s.toList) (.wall ⟨2024, 3, 10⟩ ⟨3, 0, 0, 0⟩) := by
    rw [hcs]
    exact .wall hdate (Or.inl rfl) hclock
  have hcs' : Text.trimmed gap.toList = ['2', '0', '2', '4', '-', '0', '3', '-', '1', '0'] ++
      ' ' :: ['0', '2', ':', '5', '9', ':', '5', '9'] := by
    decide
  have hclock' : IsClock IsField ['0', '2', ':', '5', '9', ':', '5', '9'] ⟨2, 59, 59, 0⟩ :=
    Or.inr (@Time.IsFullClock.mk IsField ['0', '2'] ['5', '9'] ['5', '9'] [] _ _ _ _
      (.of_two (by decide) (by decide)) (.of_two (by decide) (by decide))
      (.of_two (by decide) (by decide)) .none (by decide))
  have hgap : Moment.Written (Text.trimmed gap.toList) (.wall ⟨2024, 3, 10⟩ ⟨2, 59, 59, 0⟩) := by
    rw [hcs']
    exact .wall hdate (Or.inr rfl) hclock'
  obtain ⟨hinstant, hfields⟩ := (local_text_keeps_fields Time.Zone.regular_eastern hs).1
    ⟨.ofParts 1710054000 0 false, by decide⟩ (by decide)
  obtain ⟨hnone, hundefined⟩ := (local_text_keeps_fields Time.Zone.regular_eastern hgap).2
    (by decide)
  exact ⟨Time.Zone.regular_eastern, hs, hinstant, hfields (.day, (·.day)) (by simp [dateParts]),
    hgap, hnone, hundefined (.year, (·.year)) (by simp [dateParts])⟩

end RecordLogic.Formula
