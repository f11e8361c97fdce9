import RecordLogic.Proofs.Time.Fields

namespace RecordLogic.Time

open Number (isDigit ofDigits)

variable {cs ds os ts rest : List Char} {c : Char} {n : Nat} {offset : Int} {time : ClockTime}
  {date : Date} {Field : List Char → Nat → Prop}

/-- A date of the calendar: four digits, two and two. -/
inductive IsDate : List Char → Date → Prop where
  | mk {ys ms ds : List Char} : IsDigits 4 ys → IsDigits 2 ms → IsDigits 2 ds →
    Date.isValid ⟨ofDigits ys, ofDigits ms, ofDigits ds⟩ = true →
    IsDate (ys ++ '-' :: (ms ++ '-' :: ds)) ⟨ofDigits ys, ofDigits ms, ofDigits ds⟩

/-- A time of day without seconds, made of fields of some kind. -/
inductive IsShortClock (Field : List Char → Nat → Prop) : List Char → ClockTime → Prop where
  | mk {hs ms : List Char} {h m : Nat} : Field hs h → Field ms m →
    ClockTime.isValid ⟨h, m, 0, 0⟩ = true → IsShortClock Field (hs ++ ':' :: ms) ⟨h, m, 0, 0⟩

/-- A time of day with seconds, made of fields of some kind, and perhaps a fraction. -/
inductive IsFullClock (Field : List Char → Nat → Prop) : List Char → ClockTime → Prop where
  | mk {hs ms ss fs : List Char} {h m s nanos : Nat} : Field hs h → Field ms m → Field ss s →
    IsFraction fs nanos → ClockTime.isValid ⟨h, m, s, nanos⟩ = true →
    IsFullClock Field (hs ++ ':' :: (ms ++ ':' :: (ss ++ fs))) ⟨h, m, s, nanos⟩

def IsClock (Field : List Char → Nat → Prop) (cs : List Char) (time : ClockTime) : Prop :=
  IsShortClock Field cs time ∨ IsFullClock Field cs time

theorem IsClock.loose (h : IsClock IsField cs time) : IsClock IsLooseField cs time := by
  rcases h with ⟨hhour, hminute, hvalid⟩ | ⟨hhour, hminute, hsecond, hfraction, hvalid⟩
  · exact Or.inl ⟨hhour.loose, hminute.loose, hvalid⟩
  · exact Or.inr ⟨hhour.loose, hminute.loose, hsecond.loose, hfraction, hvalid⟩

theorem IsClock.isValid (h : IsClock Field cs time) : time.isValid = true := by
  rcases h with ⟨-, -, hvalid⟩ | ⟨-, -, -, -, hvalid⟩ <;> exact hvalid

theorem IsClock.nanos_lt (h : IsClock Field cs time) : time.nanos < 1_000_000_000 := by
  rcases h with ⟨-, -, -⟩ | ⟨-, -, -, hfraction, -⟩
  · exact Nat.zero_lt_succ _
  · exact hfraction.lt

theorem IsDate.isValid (h : IsDate cs date) : date.isValid = true := by
  obtain ⟨-, -, -, hvalid⟩ := h
  exact hvalid

theorem IsDate.year_bounds (h : IsDate cs date) : 0 ≤ date.year ∧ date.year ≤ 9999 := by
  obtain ⟨⟨hlength, hall⟩, -, -, -⟩ := h
  have hlt := Number.ofDigits_lt hall
  rw [hlength] at hlt
  exact ⟨Int.natCast_nonneg _, Int.ofNat_le.mpr (Nat.le_of_lt_succ hlt)⟩

theorem IsDate.stops (h : IsDate cs date) (rest : List Char) :
    Text.Stops Text.isBlank (cs ++ rest) := by
  obtain ⟨hyear, -, -, -⟩ := h
  rw [List.append_assoc]
  exact hyear.stops _

theorem datePrefix?_append (h : IsDate ds date) (rest : List Char) :
    datePrefix? (ds ++ rest) = some (date, rest) := by
  obtain ⟨⟨hlength, hyear⟩, hmonth, hday, hvalid⟩ := h
  obtain ⟨e, f, rfl, he, hf⟩ := isDigits_two_iff.mp hmonth
  obtain ⟨g, i, rfl, hg, hi⟩ := isDigits_two_iff.mp hday
  rename_i ys
  rcases ys with _ | ⟨a, _ | ⟨b, _ | ⟨c, _ | ⟨d, _ | ⟨x, ys⟩⟩⟩⟩⟩ <;> simp at hlength
  simp_all [datePrefix?]

theorem exists_of_datePrefix? (h : datePrefix? cs = some (date, rest)) :
    ∃ ds, cs = ds ++ rest ∧ IsDate ds date := by
  rw [datePrefix?.eq_def] at h
  split at h
  · rename_i a b c d e f g i tail
    simp only [Option.ite_none_right_eq_some, Bool.and_eq_true, Option.some.injEq,
      Prod.mk.injEq] at h
    obtain ⟨⟨hall, hvalid⟩, rfl, rfl⟩ := h
    have hdigits : IsDigits 4 [a, b, c, d] ∧ IsDigits 2 [e, f] ∧ IsDigits 2 [g, i] := by
      simp_all [IsDigits]
    exact ⟨_, rfl, .mk hdigits.1 hdigits.2.1 hdigits.2.2 hvalid⟩
  · cases h

theorem isDate_of_datePrefix? (h : datePrefix? cs = some (date, [])) : IsDate cs date := by
  obtain ⟨ds, rfl, hdate⟩ := exists_of_datePrefix? h
  rwa [List.append_nil]

theorem IsFraction.stops (h : IsFraction cs n) : Text.Stops isDigit cs := by
  cases h with
  | none => simp [Text.Stops]
  | some => exact Text.stops_cons.mpr (by decide)

/-- The characters of a time of day without an offset. -/
def isClockChar (c : Char) : Bool :=
  Text.isBlank c || isDigit c || c = ':' || c = '.'

theorem IsDigits.all_isClockChar (h : IsDigits n cs) : cs.all isClockChar = true := by
  rw [List.all_eq_true]
  intro c hc
  simp [isClockChar, List.all_eq_true.mp h.2 c hc]

theorem IsLooseField.all_isClockChar (h : IsLooseField cs n) : cs.all isClockChar = true := by
  obtain ⟨blanks, ds, rfl, hblanks, hdigits, -⟩ := h
  have hblanks' : blanks.all isClockChar = true := by
    rw [List.all_eq_true]
    intro c hc
    simp [isClockChar, List.all_eq_true.mp hblanks c hc]
  have hdigits' : ds.all isClockChar = true :=
    hdigits.elim IsDigits.all_isClockChar IsDigits.all_isClockChar
  rw [List.all_append, hblanks', hdigits']
  rfl

theorem IsFraction.all_isClockChar (h : IsFraction cs n) : cs.all isClockChar = true := by
  cases h with
  | none => rfl
  | @some ds hne hall =>
    have hdigits : ds.all isClockChar = true := IsDigits.all_isClockChar ⟨rfl, hall⟩
    rw [List.all_cons, hdigits]
    rfl

theorem IsClock.all_isClockChar (h : IsClock IsLooseField cs time) :
    cs.all isClockChar = true := by
  have hcolon : isClockChar ':' = true := by decide
  rcases h with ⟨hhour, hminute, -⟩ | ⟨hhour, hminute, hsecond, hfraction, -⟩
  · simp [hhour.all_isClockChar, hminute.all_isClockChar, hcolon]
  · simp [hhour.all_isClockChar, hminute.all_isClockChar, hsecond.all_isClockChar,
      hfraction.all_isClockChar, hcolon]

/-- An offset begins with a character that no time of day has. -/
theorem IsLooseOffset.exists_cons (h : IsLooseOffset cs offset) :
    ∃ c tail, cs = c :: tail ∧ isClockChar c = false := by
  cases h with
  | strict h =>
    cases h with
    | zulu => exact ⟨_, _, rfl, by decide⟩
    | east => exact ⟨_, _, rfl, by decide⟩
    | west => exact ⟨_, _, rfl, by decide⟩
  | zulu => exact ⟨_, _, rfl, by decide⟩
  | west => exact ⟨_, _, rfl, by decide⟩

theorem IsLooseOffset.stops (h : IsLooseOffset cs offset) : Text.Stops isFractionChar cs := by
  obtain ⟨c, tail, rfl, hc⟩ := h.exists_cons
  simp only [isClockChar, Bool.or_eq_false_iff] at hc
  exact Text.stops_cons.mpr (by simp [isFractionChar, hc])

theorem fraction?_of_isFraction (h : IsFraction cs n) : fraction? cs = some (n, []) := by
  have hread : fraction? (cs ++ []) = some (n, []) := fraction?_append h (by simp [Text.Stops])
  rwa [List.append_nil] at hread

theorem fewDigits?_of_isLooseField (h : IsLooseField cs n) : fewDigits? cs = some (n, []) := by
  have hread : fewDigits? (cs ++ []) = some (n, []) := fewDigits?_append h (by simp [Text.Stops])
  rwa [List.append_nil] at hread

theorem localTime?_of_isClock (h : IsClock IsLooseField cs time) : localTime? cs = some time := by
  have hcolon {rest : List Char} : Text.Stops isDigit (':' :: rest) :=
    Text.stops_cons.mpr (by decide)
  rcases h with ⟨hhour, hminute, hvalid⟩ | ⟨hhour, hminute, hsecond, hfraction, hvalid⟩
  · simp [localTime?, fewDigits?_append hhour hcolon, fewDigits?_of_isLooseField hminute, expect?,
      hvalid]
  · simp [localTime?, fewDigits?_append hhour hcolon, fewDigits?_append hminute hcolon,
      fewDigits?_append hsecond hfraction.stops, fraction?_of_isFraction hfraction, expect?,
      hvalid]

theorem isClock_of_localTime? (h : localTime? cs = some time) : IsClock IsLooseField cs time := by
  simp only [localTime?, Option.bind_eq_bind, Option.bind_eq_some_iff] at h
  obtain ⟨⟨hour, _⟩, hhour, _, hcolon, ⟨minute, tail⟩, hminute, h⟩ := h
  obtain ⟨hs, rfl, hhs⟩ := exists_of_fewDigits? hhour
  obtain rfl := expect?_eq_some_iff.mp hcolon
  obtain ⟨ms, rfl, hms⟩ := exists_of_fewDigits? hminute
  split at h
  · rename_i hend
    obtain rfl : tail = [] := hend
    simp only [Option.bind_some, Option.ite_none_right_eq_some] at h
    obtain ⟨hvalid, h⟩ := h
    cases h
    rw [List.append_nil]
    exact Or.inl ⟨hhs, hms, hvalid⟩
  · simp only [Option.bind_eq_some_iff] at h
    obtain ⟨_, hcolon', ⟨second, _⟩, hsecond, ⟨nanos, _⟩, hfraction, h⟩ := h
    obtain rfl := expect?_eq_some_iff.mp hcolon'
    obtain ⟨ss, rfl, hss⟩ := exists_of_fewDigits? hsecond
    obtain ⟨fs, rfl, hfs⟩ := exists_of_fraction? hfraction
    split at h
    · rename_i hend
      obtain rfl := List.isEmpty_iff.mp hend
      simp only [Option.bind_some, Option.ite_none_right_eq_some] at h
      obtain ⟨hvalid, h⟩ := h
      cases h
      rw [List.append_nil]
      exact Or.inr ⟨hhs, hms, hss, hfs, hvalid⟩
    · cases h

theorem offsetTime?_append (h : IsFullClock IsField ts time) (ho : IsLooseOffset os offset) :
    offsetTime? (ts ++ os) = some (time, offset) := by
  obtain ⟨hhour, hminute, hsecond, hfraction, hvalid⟩ := h
  simp [offsetTime?, twoDigits?_append hhour, twoDigits?_append hminute,
    twoDigits?_append hsecond, fraction?_append hfraction ho.stops,
    offset?_of_isLooseOffset ho, expect?, hvalid]

theorem exists_of_offsetTime? (h : offsetTime? cs = some (time, offset)) :
    ∃ ts os, cs = ts ++ os ∧ IsFullClock IsField ts time ∧ IsLooseOffset os offset := by
  simp only [offsetTime?, Option.bind_eq_bind, Option.bind_eq_some_iff] at h
  obtain ⟨⟨hour, _⟩, hhour, _, hcolon, ⟨minute, _⟩, hminute, _, hcolon', ⟨second, _⟩, hsecond,
    ⟨nanos, os⟩, hfraction, offset', hoffset, h⟩ := h
  obtain ⟨hs, rfl, hhs⟩ := exists_of_twoDigits? hhour
  obtain rfl := expect?_eq_some_iff.mp hcolon
  obtain ⟨ms, rfl, hms⟩ := exists_of_twoDigits? hminute
  obtain rfl := expect?_eq_some_iff.mp hcolon'
  obtain ⟨ss, rfl, hss⟩ := exists_of_twoDigits? hsecond
  obtain ⟨fs, rfl, hfs⟩ := exists_of_fraction? hfraction
  rw [Option.ite_none_right_eq_some] at h
  obtain ⟨hvalid, h⟩ := h
  cases h
  refine ⟨_, os, ?_, .mk hhs hms hss hfs hvalid, isLooseOffset_of_offset? hoffset⟩
  simp only [List.append_assoc, List.cons_append]

theorem offsetTime?_eq_none (h : cs.all isClockChar = true) : offsetTime? cs = none := by
  cases hread : offsetTime? cs with
  | none => rfl
  | some p =>
    obtain ⟨ts, os, rfl, -, hos⟩ := exists_of_offsetTime? hread
    obtain ⟨c, tail, rfl, hc⟩ := hos.exists_cons
    rw [List.all_append, List.all_cons, hc, Bool.false_and, Bool.and_false] at h
    cases h

/-- A time of day without seconds is not read before an offset. -/
theorem unread_of_isShortClock (h : IsShortClock IsField ts time) (ho : IsLooseOffset os offset) :
    offsetTime? (ts ++ os) = none ∧ localTime? (ts ++ os) = none := by
  obtain ⟨c, tail, rfl, hc⟩ := ho.exists_cons
  constructor
  · have hcolon : ':' ≠ c := by
      rintro rfl
      exact absurd hc (by decide)
    obtain ⟨hhour, hminute, -⟩ := h
    simp [offsetTime?, twoDigits?_append hhour, twoDigits?_append hminute, expect?, hcolon]
  · cases hread : localTime? (ts ++ c :: tail) with
    | none => rfl
    | some t =>
      have hall := (isClock_of_localTime? hread).all_isClockChar
      rw [List.all_append, List.all_cons, hc, Bool.false_and, Bool.and_false] at hall
      cases hall

end RecordLogic.Time
