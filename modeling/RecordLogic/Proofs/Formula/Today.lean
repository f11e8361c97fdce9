import RecordLogic.Proofs.Formula.Basic
import RecordLogic.Proofs.Number.Order
import RecordLogic.Proofs.Time.DateLike
import RecordLogic.Proofs.Time.WallClock

namespace RecordLogic.Formula

open BinaryOperator (less lessEqual greaterEqual)
open Time (Date Instant IsDate Zone)

variable {z : Zone} {now s t : Instant} {a b user : Value}

theorem find?_now (z : Zone) (now : Instant) (user : Value) :
    (SystemValues.capture z now user).find? "NOW" = some (.date now) := by
  simp only [SystemValues.capture, Table.ofList, Table.insertMany, List.foldl_cons,
    List.foldl_nil]
  rw [Table.find?_insert_of_ne (by decide), Table.find?_insert_of_ne (by decide),
    Table.find?_insert_self]

theorem find?_today (z : Zone) (now : Instant) (user : Value) :
    (SystemValues.capture z now user).find? "TODAY" = some (.date (z.startOfDay now)) := by
  simp only [SystemValues.capture, Table.ofList, Table.insertMany, List.foldl_cons,
    List.foldl_nil]
  rw [Table.find?_insert_of_ne (by decide), Table.find?_insert_self]

/-- The milliseconds of an instant are few enough for a double. -/
theorem natAbs_millis_lt (h : t.inRange = true) : t.millis.natAbs < 2 ^ 53 := by
  have hnanos := t.nanos_lt
  rw [Instant.inRange_iff, Instant.day] at h
  simp only [Instant.millis, Instant.subNanos]
  split <;> omega

theorem less_of_instants (ha : a.asDate? z = some s) (hb : b.asDate? z = some t)
    (hs : s.inRange = true) (ht : t.inRange = true) :
    less.apply z a b = .bool (decide (s.millis < t.millis)) := by
  simp only [BinaryOperator.apply, ordered, orderKeys, ha, hb,
    Number.lt_ofInt_iff (natAbs_millis_lt hs) (natAbs_millis_lt ht)]

theorem le_of_instants (ha : a.asDate? z = some s) (hb : b.asDate? z = some t)
    (hs : s.inRange = true) (ht : t.inRange = true) :
    lessEqual.apply z a b = .bool (decide (s.millis ≤ t.millis)) ∧
      greaterEqual.apply z b a = .bool (decide (s.millis ≤ t.millis)) := by
  simp only [BinaryOperator.apply, ordered, orderKeys, ha, hb,
    Number.le_ofInt_iff (natAbs_millis_lt hs) (natAbs_millis_lt ht), and_self]

/-- Where a clock is put forward and back once a year, or not at all, TODAY is the start of the
local day of NOW if there is one: it is no later than NOW, the clock shows midnight of that day, a
capture at that instant has the same TODAY, and so has a capture at another instant exactly if that
is in the same local day. There is such a start whenever the clock is only changed at two o'clock.
-/
theorem today_starts_local_day (hz : z.Regular) :
    (z.ChangesAtTwo → ∀ now : Instant, now.inRange = true →
      Date.first.dayNumber + 2 ≤ now.day → z.HasMidnight now) ∧
    ∀ (now : Instant) (user : Value), now.inRange = true → z.HasMidnight now →
      ∃ today, (SystemValues.capture z now user).find? "NOW" = some (.date now) ∧
        (SystemValues.capture z now user).find? "TODAY" = some (.date today) ∧
        lessEqual.apply z (.date today) (.date now) = .bool true ∧ ¬now.Before today ∧
        z.dateOf today = z.dateOf now ∧ z.clockOf today = ⟨0, 0, 0, 0⟩ ∧
        (SystemValues.capture z today user).find? "TODAY" = some (.date today) ∧
        ∀ other user', z.HasMidnight other →
          ((SystemValues.capture z other user').find? "TODAY" = some (.date today) ↔
            z.dateOf other = z.dateOf now) := by
  refine ⟨fun htwo now hnow hday => Zone.hasMidnight_of_changesAtTwo hz htwo hnow hday,
    fun now user hnow hmidnight => ?_⟩
  obtain ⟨hrange, hreading, hnanos, hleap⟩ := Zone.startOfDay_spec hz hmidnight
  have hle := Zone.seconds_le_of_midnight hz hreading hmidnight.2
  have hday := Zone.midnightOf_of_midnight hreading
  have hwhole := Time.subNanos_of_whole hnanos hleap
  refine ⟨z.startOfDay now, find?_now z now user, find?_today z now user, ?_, ?_,
    Zone.midnightOf_eq_iff.mp hday, Zone.clockOf_eq (by decide) ?_ hnanos hleap, ?_, ?_⟩
  · have hmillis : (z.startOfDay now).millis ≤ now.millis := by
      simp only [Instant.millis, hwhole]
      omega
    rw [(le_of_instants rfl rfl hrange hnow).1, decide_eq_true hmillis]
  · simp only [Instant.Before, hwhole]
    omega
  · rw [Zone.secondOf, hreading, Zone.midnightOf, Int.mul_emod_right]
    rfl
  · rw [find?_today, Zone.startOfDay_congr hz hmidnight hday]
  · intro other user' hother
    rw [find?_today, Option.some.injEq, Value.date.injEq, ← Zone.midnightOf_eq_iff]
    constructor
    · intro heq
      obtain ⟨-, hreading', -⟩ := Zone.startOfDay_spec hz hother
      rw [← Zone.midnightOf_of_midnight hreading', heq, hday]
    · exact Zone.startOfDay_congr hz hmidnight

/-- The day of November on which the clock is put back has an hour more. -/
theorem today_starts_local_day_autumn :
    let now : Instant := .ofParts 1730635200 5 false
    let other : Instant := .ofParts 1730694600 0 false
    let today : Instant := .ofParts 1730606400 0 false
    Zone.eastern.Regular ∧ Zone.eastern.ChangesAtTwo ∧ now.inRange = true ∧
      Date.first.dayNumber + 2 ≤ now.day ∧ Zone.eastern.HasMidnight now ∧
      (SystemValues.capture .eastern now .null).find? "TODAY" = some (.date today) ∧
      lessEqual.apply .eastern (.date today) (.date now) = .bool true ∧
      Zone.eastern.dateOf today = ⟨2024, 11, 3⟩ ∧ Zone.eastern.clockOf today = ⟨0, 0, 0, 0⟩ ∧
      (SystemValues.capture .eastern other .null).find? "TODAY" = some (.date today) := by
  intro now other today
  have htwo : Zone.eastern.ChangesAtTwo := ⟨rfl, rfl, by decide⟩
  have hnow : now.inRange = true := by decide
  have hday : Date.first.dayNumber + 2 ≤ now.day := by decide
  have hother : other.inRange = true := by decide
  have hday' : Date.first.dayNumber + 2 ≤ other.day := by decide
  obtain ⟨hmidnights, htoday⟩ := today_starts_local_day Zone.regular_eastern
  have hmidnight := hmidnights htwo now hnow hday
  obtain ⟨start, -, hstart, hle, -, hdate, hclock, -, hothers⟩ := htoday now .null hnow hmidnight
  have hsame : start = today := by
    rw [find?_today, Option.some.injEq, Value.date.injEq] at hstart
    rw [← hstart]
    decide
  subst hsame
  exact ⟨Zone.regular_eastern, htwo, hnow, hday, hmidnight, hstart, hle,
    hdate.trans (by decide), hclock,
    (hothers other .null (hmidnights htwo other hother hday')).mpr (by decide)⟩

variable {ctx : Context} {field text : String} {date : Date}

/-- A comparison of a field of the form with TODAY. -/
def againstToday (op field : String) : Expr :=
  .binary none op [.identifier none field, .system none "TODAY"]

theorem outcome_againstToday (op : BinaryOperator) (field : String)
    (hctx : ctx.system = SystemValues.capture z now user) :
    ((Evaluator.standard z).eval ctx (againstToday op.symbol field)).outcome =
      .ok (op.apply z (ctx.formValue field) (.date (z.startOfDay now))) := by
  have hsymbol : BinaryOperator.ofSymbol? op.symbol = some op := by
    cases op <;> decide
  have htoday : ctx.systemValue "TODAY" = .date (z.startOfDay now) := by
    rw [Context.systemValue, hctx, find?_today, Option.getD_some]
  have hdepth {n : Nat} (hn : n ≤ 256) : ¬(Evaluator.standard z).options.maxDepth < n :=
    Nat.not_lt.mpr hn
  have hbinary : (Evaluator.standard z).evalAt ctx 0 (againstToday op.symbol field) = _ :=
    Evaluator.evalAt_binary none op.symbol _ (hdepth (Nat.zero_le _))
  rw [hsymbol] at hbinary
  have hfield : (Evaluator.standard z).evalAt ctx 1 (.identifier none field) =
      pure (ctx.formValue field) := by
    rw [Evaluator.evalAt.eq_def, if_neg (hdepth (by decide))]
  have hsystem : (Evaluator.standard z).evalAt ctx 1 (.system none "TODAY") =
      pure (.date (z.startOfDay now)) := by
    rw [Evaluator.evalAt.eq_def, if_neg (hdepth (by decide)), ← htoday]
  rw [Evaluator.eval, hbinary]
  simp only [hfield, hsystem]
  rfl

theorem asDate?_of_isDate (z : Zone) (h : IsDate (Text.trimmed text.toList) date) :
    ∃ t, (Value.text text).asDate? z = some t ∧ t.millis = 86_400_000 * date.dayNumber ∧
      t.inRange = true := by
  have hday := Time.dayNumber_of_isDate h
  refine ⟨_, Time.dateLike?_of_accepted z (.day h), ?_, ?_⟩
  · have hleap : (Time.instantAt date ⟨0, 0, 0, 0⟩ 0).leap = false :=
      Time.leap_ofParts _ _ _
    have hnanos : (Time.instantAt date ⟨0, 0, 0, 0⟩ 0).nanos = 0 :=
      Time.nanos_ofParts _ _ (by decide)
    rw [Instant.millis, Time.subNanos_of_whole hnanos hleap, Time.instantAt,
      Time.seconds_ofParts, Time.ClockTime.ofDay]
    simp only
    omega
  · rw [Instant.inRange_iff, Instant.day, Time.instantAt, Time.seconds_ofParts,
      Time.ClockTime.ofDay]
    simp only
    omega

/-- A date without a time is before TODAY if its universal midnight is. So every date before the
local date of NOW is; and where TODAY is local midnight of that date, no other is, but for this date
itself where local time is behind universal time. -/
theorem date_against_today (hz : ∀ offset ∈ z.offsets, offset.natAbs < 86400)
    (hnow : now.inRange = true) (hctx : ctx.system = SystemValues.capture z now user)
    (hfield : ctx.formValue field = .text text)
    (hdate : IsDate (Text.trimmed text.toList) date) :
    let today := z.startOfDay now
    let answer (op : String) := ((Evaluator.standard z).eval ctx (againstToday op field)).outcome
    ∃ b : Bool, answer "<" = .ok (.bool b) ∧ answer ">=" = .ok (.bool !b) ∧
      (b = true ↔ 86_400_000 * date.dayNumber < today.millis) ∧
      (date.dayNumber < (z.dateOf now).dayNumber → b = true) ∧
      (z.dateOf today = z.dateOf now → z.clockOf today = ⟨0, 0, 0, 0⟩ →
        (b = true ↔ date.dayNumber < (z.dateOf now).dayNumber ∨
          date = z.dateOf now ∧ z.offsetAt today.seconds < 0)) := by
  intro today answer
  obtain ⟨t, ht, hmillis, hrange⟩ := asDate?_of_isDate z hdate
  have htoday : today.inRange = true := z.inRange_startOfDay hnow
  have hless := outcome_againstToday (z := z) less field hctx
  have hnot := outcome_againstToday (z := z) greaterEqual field hctx
  rw [hfield, less_of_instants ht rfl hrange htoday, hmillis] at hless
  rw [hfield, (le_of_instants rfl ht htoday hrange).2, hmillis] at hnot
  refine ⟨_, hless, ?_, decide_eq_true_iff, ?_, ?_⟩
  · have hnegation : decide (today.millis ≤ 86_400_000 * date.dayNumber) =
        !decide (86_400_000 * date.dayNumber < today.millis) := by
      rw [← decide_not, decide_eq_decide, Int.not_lt]
    rw [← hnegation]
    exact hnot
  · intro hbefore
    have hlt : z.midnightOf now - 86400 < today.seconds := Zone.lt_startOfDay hz now
    rw [Zone.midnightOf_eq] at hlt
    rw [decide_eq_true_iff, Instant.millis]
    omega
  · intro hday hclock
    obtain ⟨hsecond, hnanos, hleap⟩ := Zone.parts_of_clockOf_zero hclock
    have hmidnight := Zone.midnightOf_eq_iff.mpr hday
    have hoffset := hz _ (z.offsetAt_mem_offsets today.seconds)
    have hwhole := Time.subNanos_of_whole hnanos hleap
    have hsame : date = z.dateOf now ↔ date.dayNumber = (z.dateOf now).dayNumber :=
      ⟨congrArg _, Date.eq_of_dayNumber hdate.isValid (z.isValid_dateOf now)⟩
    rw [decide_eq_true_iff, Instant.millis, hwhole, hsame]
    rw [z.midnightOf_eq now, Zone.midnightOf] at hmidnight
    rw [Zone.secondOf] at hsecond
    simp only [Zone.readingOf] at hmidnight hsecond
    omega

/-- Five and a half hours east of universal time the leap day has begun. -/
theorem date_against_today_ahead :
    let z : Zone := .fixed 19800
    let now : Instant := .ofParts 1709150400 0 false
    let ctx : Context :=
      ⟨Table.ofList [("due", .text "2024-02-29")], SystemValues.capture z now .null⟩
    (∀ offset ∈ z.offsets, offset.natAbs < 86400) ∧ now.inRange = true ∧
      ctx.formValue "due" = .text "2024-02-29" ∧ z.dateOf now = ⟨2024, 2, 29⟩ ∧
      IsDate (Text.trimmed "2024-02-29".toList) ⟨2024, 2, 29⟩ ∧
      ((Evaluator.standard z).eval ctx (againstToday "<" "due")).outcome = .ok (.bool false) ∧
      ((Evaluator.standard z).eval ctx (againstToday ">=" "due")).outcome = .ok (.bool true) := by
  intro z now ctx
  have hz : ∀ offset ∈ z.offsets, offset.natAbs < 86400 := by decide
  have hnow : now.inRange = true := by decide
  have hfield : ctx.formValue "due" = .text "2024-02-29" := rfl
  have hdate : IsDate (Text.trimmed "2024-02-29".toList) ⟨2024, 2, 29⟩ :=
    Time.isDate_of_datePrefix? (by decide +kernel)
  obtain ⟨b, hless, hnot, -, -, hmidnight⟩ := date_against_today hz hnow rfl hfield hdate
  have hfalse : b = false := by
    rw [← Bool.not_eq_true, hmidnight (by decide) (by decide)]
    decide
  subst hfalse
  exact ⟨hz, hnow, hfield, by decide, hdate, hless, hnot⟩

/-- Eight hours west of universal time a day comes before its own start. -/
theorem date_against_today_behind :
    let z : Zone := .fixed (-28800)
    let now : Instant := .ofParts 1718481600 0 false
    let ctx : Context :=
      ⟨Table.ofList [("due", .text "2024-06-15")], SystemValues.capture z now .null⟩
    z.dateOf now = ⟨2024, 6, 15⟩ ∧ IsDate (Text.trimmed "2024-06-15".toList) ⟨2024, 6, 15⟩ ∧
      ctx.formValue "due" = .text "2024-06-15" ∧
      ((Evaluator.standard z).eval ctx (againstToday "<" "due")).outcome = .ok (.bool true) := by
  intro z now ctx
  have hfield : ctx.formValue "due" = .text "2024-06-15" := rfl
  have hdate : IsDate (Text.trimmed "2024-06-15".toList) ⟨2024, 6, 15⟩ :=
    Time.isDate_of_datePrefix? (by decide +kernel)
  obtain ⟨t, ht, hmillis, hrange⟩ := asDate?_of_isDate z hdate
  have houtcome : ((Evaluator.standard z).eval ctx (againstToday less.symbol "due")).outcome = _ :=
    outcome_againstToday less "due" rfl
  have hbefore : 86_400_000 * Date.dayNumber ⟨2024, 6, 15⟩ < (z.startOfDay now).millis := by decide
  rw [hfield, less_of_instants ht rfl hrange (by decide), hmillis, decide_eq_true hbefore]
    at houtcome
  exact ⟨by decide, hdate, hfield, houtcome⟩

end RecordLogic.Formula
