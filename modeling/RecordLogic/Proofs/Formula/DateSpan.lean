import RecordLogic.Formula.Builtin
import RecordLogic.Proofs.Time.Instant

namespace RecordLogic.Formula

variable {zone : Time.Zone} {v w : Value} {args : Arguments} {unit : DateUnit}
  {a b : Time.Instant}

/-- The unit that a value names: its text without regard to case and to the letters `s` at the end;
a nullish value stands for days. -/
def DateUnit.named? (v : Value) : Option DateUnit :=
  if v.isNullish then some days else ofName? (singular v.toText)

/-- The only error of the date functions. -/
def unknownUnit (function : String) (v : Value) : EvalError :=
  .function function ("unknown date unit: " ++ v.toText)

theorem dateUnit_of_some (function : String) (h : DateUnit.named? (args.arg 2) = some unit) :
    dateUnit function args = .ok unit := by
  rw [DateUnit.named?] at h
  rw [dateUnit]
  split at h
  · rename_i hnullish
    cases h
    rw [if_pos hnullish]
  · rename_i hnullish
    rw [if_neg hnullish, h]

theorem dateUnit_of_none (function : String) (h : DateUnit.named? (args.arg 2) = none) :
    dateUnit function args = .error (unknownUnit function (args.arg 2)) := by
  rw [DateUnit.named?] at h
  rw [dateUnit]
  split at h
  · cases h
  · rename_i hnullish
    rw [if_neg hnullish, h, unknownUnit]

theorem dateDiff_of_some (args : Arguments) (hunit : DateUnit.named? (args.arg 2) = some unit)
    (ha : (args.arg 0).asDate? zone = some a) (hb : (args.arg 1).asDate? zone = some b) :
    dateDiff zone args = .ok (.number (.ofInt (span zone unit a b))) := by
  simp only [dateDiff, dateUnit_of_some "DATEDIFF" hunit, ha, hb]
  rfl

theorem dateDiff_of_none (args : Arguments) (hunit : DateUnit.named? (args.arg 2) = some unit)
    (h : (args.arg 0).asDate? zone = none ∨ (args.arg 1).asDate? zone = none) :
    dateDiff zone args = .ok .undefined := by
  simp only [dateDiff, dateUnit_of_some "DATEDIFF" hunit]
  rcases h with ha | hb
  · rw [ha]
    rfl
  · rw [hb]
    cases (args.arg 0).asDate? zone <;> rfl

theorem dateDiff_of_unknown (args : Arguments) (h : DateUnit.named? (args.arg 2) = none) :
    dateDiff zone args = .error (unknownUnit "DATEDIFF" (args.arg 2)) := by
  simp only [dateDiff, dateUnit_of_none "DATEDIFF" h]
  rfl

/-- A part of a month is taken off on one side as on the other. -/
theorem monthSpan_swap_of_lt
    (h : (zone.dateOf a).monthNumber < (zone.dateOf b).monthNumber) :
    monthSpan zone b a = -monthSpan zone a b := by
  simp only [monthSpan]
  generalize (zone.dateOf a).monthNumber = j at h
  generalize (zone.dateOf b).monthNumber = k at h
  have hforth : 0 < k - j ∧ ¬k - j < 0 := by omega
  have hback : j - k < 0 ∧ ¬0 < j - k := by omega
  simp only [hforth, hback, decide_true, decide_false, Bool.true_and, Bool.false_and,
    Bool.false_eq_true, if_false]
  split <;> omega

theorem monthSpan_swap (zone : Time.Zone) (a b : Time.Instant) :
    monthSpan zone b a = -monthSpan zone a b := by
  rcases Int.lt_trichotomy (zone.dateOf a).monthNumber (zone.dateOf b).monthNumber with
    hlt | heq | hlt
  · exact monthSpan_swap_of_lt hlt
  · simp [monthSpan, heq]
  · rw [monthSpan_swap_of_lt hlt, Int.neg_neg]

theorem span_swap (zone : Time.Zone) (unit : DateUnit) (a b : Time.Instant) :
    span zone unit b a = -span zone unit a b := by
  rw [span, span]
  cases unit.seconds? with
  | some seconds =>
    simp only
    rw [Time.Instant.elapsed_swap, Int.neg_tdiv]
  | none =>
    simp only
    rw [monthSpan_swap, Int.neg_tdiv]

/-- Two calls with the dates exchanged fail with the same error if the unit has no name, are both
undefined without two dates, and otherwise give opposite whole numbers. -/
theorem dateDiff_antisymm (zone : Time.Zone) (v w : Value) (rest : Arguments) :
    let forth := Builtin.dateDiff.apply zone (v :: w :: rest)
    let back := Builtin.dateDiff.apply zone (w :: v :: rest)
    (∃ err, DateUnit.named? (rest.arg 0) = none ∧ forth = .error err ∧ back = .error err) ∨
      ((v.asDate? zone = none ∨ w.asDate? zone = none) ∧
        forth = .ok .undefined ∧ back = .ok .undefined) ∨
      ∃ k : Int, forth = .ok (.number (.ofInt k)) ∧ back = .ok (.number (.ofInt (-k))) := by
  intro forth back
  cases hunit : DateUnit.named? (rest.arg 0) with
  | none =>
    left
    exact ⟨_, rfl, dateDiff_of_unknown (v :: w :: rest) hunit,
      dateDiff_of_unknown (w :: v :: rest) hunit⟩
  | some unit =>
    right
    cases hv : v.asDate? zone with
    | none =>
      left
      exact ⟨Or.inl rfl, dateDiff_of_none (v :: w :: rest) hunit (Or.inl hv),
        dateDiff_of_none (w :: v :: rest) hunit (Or.inr hv)⟩
    | some a =>
      cases hw : w.asDate? zone with
      | none =>
        left
        exact ⟨Or.inr rfl, dateDiff_of_none (v :: w :: rest) hunit (Or.inr hw),
          dateDiff_of_none (w :: v :: rest) hunit (Or.inl hw)⟩
      | some b =>
        right
        refine ⟨span zone unit a b, dateDiff_of_some (v :: w :: rest) hunit hv hw, ?_⟩
        rw [← span_swap]
        exact dateDiff_of_some (w :: v :: rest) hunit hw hv

end RecordLogic.Formula
