import RecordLogic.Formula.Operator
import RecordLogic.Proofs.Time.Text
import RecordLogic.Value.Json

namespace RecordLogic.Formula

open BinaryOperator (less lessEqual greater greaterEqual)

/-- Two values that denote instants of one millisecond compare alike with every value that denotes
an instant, on either side. -/
theorem orderKeys_of_millis {zone : Time.Zone} {a b v : Value} {s t u : Time.Instant}
    (ha : a.asDate? zone = some s) (hb : b.asDate? zone = some t) (hv : v.asDate? zone = some u)
    (hmillis : s.millis = t.millis) :
    orderKeys zone a v = orderKeys zone b v ∧ orderKeys zone v a = orderKeys zone v b := by
  simp only [orderKeys, ha, hb, hv, hmillis, and_self]

theorem apply_of_orderKeys {zone : Time.Zone} {a b c d : Value}
    (h : orderKeys zone a b = orderKeys zone c d) {op : BinaryOperator}
    (hop : op ∈ [less, lessEqual, greater, greaterEqual]) :
    op.apply zone a b = op.apply zone c d := by
  simp only [List.mem_cons, List.not_mem_nil, or_false] at hop
  rcases hop with rfl | rfl | rfl | rfl <;> simp only [BinaryOperator.apply, ordered, h]

/-- The text that stands for a date in texts and documents denotes the date without what is finer
than a millisecond: next to values that denote instants it is ordered as the date is, and it equals
the date. A leap second that does not end a minute of universal time is written as the second after
it, which has the same milliseconds. -/
theorem date_text_keeps_instant (zone : Time.Zone) (t : Time.Instant) (hlow : 0 ≤ t.date.year)
    (hhigh : t.date.year ≤ 9999) :
    ∃ s u, (Value.date t).toText = s ∧ (Value.date t).toJson = .text s ∧
      (Value.text s).asDate? zone = some u ∧ u.millis = t.millis ∧ u.truncated = u ∧
      ((t.leap = true → t.seconds % 60 = 59) → u = t.truncated) ∧
      (∀ v, (v.asDate? zone).isSome = true → ∀ op ∈ [less, lessEqual, greater, greaterEqual],
        op.apply zone (.date t) v = op.apply zone (.text s) v ∧
        op.apply zone v (.date t) = op.apply zone v (.text s)) ∧
      BinaryOperator.equal.apply zone (.date t) (.text s) = .bool true := by
  have hread : (Value.text (t.text 3)).asDate? zone = some t.truncated.settled :=
    t.dateLike?_text zone hlow hhigh
  have hmillis : t.truncated.settled.millis = t.millis := by
    rw [t.truncated.millis_settled, t.millis_truncated]
  refine ⟨t.text 3, t.truncated.settled, by rw [Value.toText], by rw [Value.toJson], hread, hmillis,
    t.settled.truncated_truncated, t.truncated.settled_of_last, ?_, ?_⟩
  · intro v hv op hop
    obtain ⟨u, hu⟩ := Option.isSome_iff_exists.mp hv
    obtain ⟨hleft, hright⟩ := orderKeys_of_millis (a := .date t) rfl hread hu hmillis.symm
    exact ⟨apply_of_orderKeys hleft hop, apply_of_orderKeys hright hop⟩
  · have hequal : (Time.dateLike? zone (t.text 3)).any (·.millis == t.millis) = true := by
      rw [t.dateLike?_text zone hlow hhigh, Option.any_some, hmillis, beq_self_eq_true]
    simp [BinaryOperator.apply, Value.looseEq, Value.flatEq, Value.isNullish, Value.isNumeric,
      hequal]

/-- A leap second before 1970, with nanoseconds. -/
theorem date_text_keeps_instant_leap :
    let t : Time.Instant := .ofParts (-1) 123_456_789 true
    let v : Value := .text "1970-01-01"
    t.leap = true ∧ t.truncated ≠ t ∧ 0 ≤ t.date.year ∧ t.date.year ≤ 9999 ∧
      (Value.date t).toText = "1969-12-31T23:59:60.123Z" ∧
      (Value.text "1969-12-31T23:59:60.123Z").asDate? .utc = some t.truncated ∧
      less.apply .utc (.date t) v = less.apply .utc (.text "1969-12-31T23:59:60.123Z") v := by
  intro t v
  have hlow : 0 ≤ t.date.year := by decide
  have hhigh : t.date.year ≤ 9999 := by decide
  have htext : (Value.date t).toText = "1969-12-31T23:59:60.123Z" := by
    rw [Value.toText]
    decide
  obtain ⟨s, u, hs, -, hread, -, -, hlast, horder, -⟩ := date_text_keeps_instant .utc t hlow hhigh
  obtain rfl : s = "1969-12-31T23:59:60.123Z" := hs.symm.trans htext
  obtain rfl : u = t.truncated := hlast (by decide)
  exact ⟨by decide, by decide, hlow, hhigh, htext, hread,
    (horder v (by decide) less (by decide)).1⟩

end RecordLogic.Formula
