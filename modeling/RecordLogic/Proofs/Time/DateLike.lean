import RecordLogic.Proofs.Time.Clock
import RecordLogic.Value.Coercion

namespace RecordLogic.Time

variable {c : Char} {cs ds os ts : List Char} {offset : Int} {time : ClockTime} {date : Date}

/-- What a text of a date says: a day, a time of day at an offset, or one by the local clock. -/
inductive Moment where
  | day (date : Date)
  | zoned (date : Date) (time : ClockTime) (offset : Int)
  | wall (date : Date) (time : ClockTime)

def IsSeparator (c : Char) : Prop := c = 'T' ∨ c = ' '

namespace Moment

/-- A day stands for its first instant of universal time. The local clock need not show a time of
day. -/
def instant? (zone : Zone) : Moment → Option Instant
  | day date => some (instantAt date ⟨0, 0, 0, 0⟩ 0)
  | zoned date time offset => some (instantAt date time offset)
  | wall date time =>
    zone.instantOf? (86400 * date.dayNumber + time.ofDay) time.nanos time.isLeap

/-- The form of such a text: a date, and perhaps a time of day behind a `T` or a blank, with fields
of two digits, and with or without seconds and an offset. -/
inductive Written : List Char → Moment → Prop where
  | day {ds : List Char} {date : Date} : IsDate ds date → Written ds (.day date)
  | zoned {ds ts os : List Char} {c : Char} {date : Date} {time : ClockTime} {offset : Int} :
    IsDate ds date → IsSeparator c → IsClock IsField ts time → IsOffset os offset →
    Written (ds ++ c :: (ts ++ os)) (.zoned date time offset)
  | wall {ds ts : List Char} {c : Char} {date : Date} {time : ClockTime} :
    IsDate ds date → IsSeparator c → IsClock IsField ts time →
    Written (ds ++ c :: ts) (.wall date time)

/-- The texts that are read: an offset needs seconds before it and has more spellings, and the
fields of a time of day without an offset may be shorter or have blanks before them. -/
inductive Accepted : List Char → Moment → Prop where
  | day {ds : List Char} {date : Date} : IsDate ds date → Accepted ds (.day date)
  | zoned {ds ts os : List Char} {c : Char} {date : Date} {time : ClockTime} {offset : Int} :
    IsDate ds date → IsSeparator c → IsFullClock IsField ts time → IsLooseOffset os offset →
    Accepted (ds ++ c :: (ts ++ os)) (.zoned date time offset)
  | wall {ds ts : List Char} {c : Char} {date : Date} {time : ClockTime} :
    IsDate ds date → IsSeparator c → IsClock IsLooseField ts time →
    Accepted (ds ++ c :: ts) (.wall date time)

end Moment

/-- A text of the form that has an offset and no seconds. -/
inductive OmitsSeconds : List Char → Prop where
  | mk {ds ts os : List Char} {c : Char} {date : Date} {time : ClockTime} {offset : Int} :
    IsDate ds date → IsSeparator c → IsShortClock IsField ts time → IsOffset os offset →
    OmitsSeconds (ds ++ c :: (ts ++ os))

variable {m : Moment} {s : String} {t : Instant}

theorem IsSeparator.mark (h : IsSeparator c) : (c = 'T' || c = ' ') = true := by
  simpa [IsSeparator] using h

theorem IsClock.length (h : IsClock IsField ts time) : 5 ≤ ts.length := by
  rcases h with ⟨⟨⟨hhour, -⟩, -⟩, ⟨⟨hminute, -⟩, -⟩, -⟩ |
    ⟨⟨⟨hhour, -⟩, -⟩, ⟨⟨hminute, -⟩, -⟩, -, -, -⟩
  · simp [hhour, hminute]
  · simp [hhour, hminute]
    omega

/-- The shortest text with a time of day has sixteen characters. -/
theorem Moment.Written.length (h : Moment.Written cs m) : cs.length = 10 ∨ 16 ≤ cs.length := by
  have hten {ds : List Char} {date : Date} (hdate : IsDate ds date) : ds.length = 10 := by
    obtain ⟨⟨hyear, -⟩, ⟨hmonth, -⟩, ⟨hday, -⟩, -⟩ := hdate
    simp [hyear, hmonth, hday]
  cases h with
  | day hdate => exact Or.inl (hten hdate)
  | zoned hdate _ htime _ =>
    have hlength := htime.length
    have hdays := hten hdate
    simp
    omega
  | wall hdate _ htime =>
    have hlength := htime.length
    have hdays := hten hdate
    simp
    omega

theorem Moment.Written.accepted (h : Moment.Written cs m) (hseconds : ¬OmitsSeconds cs) :
    Moment.Accepted cs m := by
  cases h with
  | day hdate => exact .day hdate
  | zoned hdate hseparator htime hoffset =>
    rcases htime with hshort | hfull
    · exact absurd (.mk hdate hseparator hshort hoffset) hseconds
    · exact .zoned hdate hseparator hfull (.strict hoffset)
  | wall hdate hseparator htime => exact .wall hdate hseparator htime.loose

/-- A text of the form without an offset is accepted, and its parts are those of a clock. -/
theorem Moment.Written.of_wall (h : Moment.Written cs (.wall date time)) :
    Moment.Accepted cs (.wall date time) ∧ date.isValid = true ∧ time.isValid = true ∧
      time.nanos < 1_000_000_000 := by
  cases h with
  | wall hdate hseparator htime =>
    exact ⟨.wall hdate hseparator htime.loose, hdate.isValid, htime.isValid, htime.nanos_lt⟩

/-- What is accepted denotes the instant of what it says, if there is one. -/
theorem dateLike?_of_accepted (zone : Zone) (h : Moment.Accepted (Text.trimmed s.toList) m) :
    dateLike? zone s = m.instant? zone := by
  rw [dateLike?]
  generalize Text.trimmed s.toList = cs at h
  cases h with
  | day hdate =>
    have hread := datePrefix?_append hdate []
    rw [List.append_nil] at hread
    rw [hread]
    rfl
  | zoned hdate hseparator htime hoffset =>
    rw [datePrefix?_append hdate]
    simp only [Option.bind_eq_bind, Option.bind_some, hseparator.mark, if_true,
      offsetTime?_append htime hoffset]
    rfl
  | wall hdate hseparator htime =>
    rw [datePrefix?_append hdate]
    simp only [Option.bind_eq_bind, Option.bind_some, hseparator.mark, if_true,
      offsetTime?_eq_none htime.all_isClockChar, localTime?_of_isClock htime]
    rfl

theorem accepted_of_dateLike? {zone : Zone} (h : dateLike? zone s = some t) :
    ∃ m, Moment.Accepted (Text.trimmed s.toList) m ∧ m.instant? zone = some t := by
  simp only [dateLike?, Option.bind_eq_bind, Option.bind_eq_some_iff] at h
  obtain ⟨⟨date, rest⟩, hprefix, h⟩ := h
  obtain ⟨ds, hds, hdate⟩ := exists_of_datePrefix? hprefix
  rw [hds]
  split at h
  · rename_i hend
    obtain rfl : rest = [] := hend
    rw [List.append_nil]
    exact ⟨_, .day hdate, h⟩
  · rename_i separator cs hrest
    obtain rfl : rest = separator :: cs := hrest
    split at h
    · rename_i hmark
      have hseparator : IsSeparator separator := by simpa [IsSeparator] using hmark
      split at h
      · rename_i time offset hread
        obtain ⟨ts, os, rfl, htime, hoffset⟩ := exists_of_offsetTime? hread
        exact ⟨_, .zoned hdate hseparator htime hoffset, h⟩
      · rw [Option.bind_eq_some_iff] at h
        obtain ⟨time, hread, h⟩ := h
        exact ⟨_, .wall hdate hseparator (isClock_of_localTime? hread), h⟩
    · cases h

theorem dateLike?_of_omitsSeconds (zone : Zone) (h : OmitsSeconds (Text.trimmed s.toList)) :
    dateLike? zone s = none := by
  rw [dateLike?]
  generalize Text.trimmed s.toList = cs at h
  obtain ⟨hdate, hseparator, htime, hoffset⟩ := h
  obtain ⟨hzoned, hlocal⟩ := unread_of_isShortClock htime (.strict hoffset)
  rw [datePrefix?_append hdate]
  simp only [Option.bind_eq_bind, Option.bind_some, hseparator.mark, if_true, hzoned, hlocal,
    Option.bind_none]

end RecordLogic.Time

namespace RecordLogic.Value

open Time (Instant IsClock IsDate IsField IsOffset Moment OmitsSeconds)

/-- A text of the form of a date denotes the instant of what it says, if there is one, unless it has
an offset and no seconds: then it denotes none. Of the other texts those denote an instant that are
accepted all the same. -/
theorem asDate?_text (zone : Time.Zone) (s : String) :
    let cs := Text.trimmed s.toList
    (∀ m, Moment.Written cs m → ¬OmitsSeconds cs → (text s).asDate? zone = m.instant? zone) ∧
      (OmitsSeconds cs → (∃ m t, Moment.Written cs m ∧ m.instant? zone = some t) ∧
        (text s).asDate? zone = none) ∧
      ((∀ m, ¬Moment.Written cs m) → ∀ t, (text s).asDate? zone = some t ↔
        ∃ m, Moment.Accepted cs m ∧ m.instant? zone = some t) := by
  intro cs
  refine ⟨fun m hm hseconds => ?_, fun hseconds => ⟨?_, ?_⟩, fun _ t => ⟨?_, ?_⟩⟩
  · exact Time.dateLike?_of_accepted zone (hm.accepted hseconds)
  · generalize cs = cs at hseconds
    obtain ⟨hdate, hseparator, htime, hoffset⟩ := hseconds
    exact ⟨_, _, .zoned hdate hseparator (Or.inl htime) hoffset, rfl⟩
  · exact Time.dateLike?_of_omitsSeconds zone hseconds
  · exact Time.accepted_of_dateLike?
  · rintro ⟨m, hm, ht⟩
    exact (Time.dateLike?_of_accepted zone hm).trans ht

/-- The leap second at the end of 2016, eight hours west of universal time. -/
theorem asDate?_text_leap_second :
    let s := " 2016-12-31 15:59:60.25-08:00\t"
    let m : Moment := .zoned ⟨2016, 12, 31⟩ ⟨15, 59, 60, 250_000_000⟩ (-480)
    Moment.Written (Text.trimmed s.toList) m ∧ ¬OmitsSeconds (Text.trimmed s.toList) ∧
      (text s).asDate? .utc = some (.ofParts 1483228799 250_000_000 true) := by
  intro s m
  have hcs : Text.trimmed s.toList =
      ['2', '0', '1', '6', '-', '1', '2', '-', '3', '1'] ++ ' ' ::
        (['1', '5', ':', '5', '9', ':', '6', '0', '.', '2', '5'] ++
          ['-', '0', '8', ':', '0', '0']) := by
    decide
  have hdate : IsDate ['2', '0', '1', '6', '-', '1', '2', '-', '3', '1'] ⟨2016, 12, 31⟩ :=
    Time.isDate_of_datePrefix? (by decide)
  have htime : IsClock IsField ['1', '5', ':', '5', '9', ':', '6', '0', '.', '2', '5']
      ⟨15, 59, 60, 250_000_000⟩ :=
    Or.inr (@Time.IsFullClock.mk IsField ['1', '5'] ['5', '9'] ['6', '0'] ['.', '2', '5'] _ _ _ _
      (.of_two (by decide) (by decide)) (.of_two (by decide) (by decide))
      (.of_two (by decide) (by decide))
      (@Time.IsFraction.some ['2', '5'] (by decide) (by decide)) (by decide))
  have hoffset : IsOffset ['-', '0', '8', ':', '0', '0'] (-480) :=
    .west (@Time.IsSpan.mk ['0', '8'] ['0', '0'] 8 0 (.of_two (by decide) (by decide))
      (.of_two (by decide) (by decide)) (by decide) (by decide))
  have hwritten : Moment.Written (Text.trimmed s.toList) m := by
    rw [hcs]
    exact .zoned hdate (Or.inr rfl) htime hoffset
  have hread : (text s).asDate? .utc = some (.ofParts 1483228799 250_000_000 true) := by decide
  have hseconds : ¬OmitsSeconds (Text.trimmed s.toList) := by
    intro hshort
    have hnone := ((asDate?_text .utc s).2.1 hshort).2
    rw [hread] at hnone
    cases hnone
  exact ⟨hwritten, hseconds, ((asDate?_text .utc s).1 m hwritten hseconds).trans (by decide)⟩

/-- A text of the form that denotes nothing, and one not of the form that denotes an instant. -/
theorem asDate?_text_not_documented :
    let s := "2024-03-15T10:30+02:00"
    let m : Moment := .zoned ⟨2024, 3, 15⟩ ⟨10, 30, 0, 0⟩ 120
    (Moment.Written (Text.trimmed s.toList) m ∧
      m.instant? .utc = some (.ofParts 1710491400 0 false) ∧ (text s).asDate? .utc = none) ∧
      (∀ m, ¬Moment.Written (Text.trimmed "2024-03-15T1:5".toList) m) ∧
      (text "2024-03-15T1:5").asDate? .utc = some (.ofParts 1710464700 0 false) := by
  intro s m
  have hcs : Text.trimmed s.toList =
      ['2', '0', '2', '4', '-', '0', '3', '-', '1', '5'] ++ 'T' ::
        (['1', '0', ':', '3', '0'] ++ ['+', '0', '2', ':', '0', '0']) := by
    decide
  have hdate : IsDate ['2', '0', '2', '4', '-', '0', '3', '-', '1', '5'] ⟨2024, 3, 15⟩ :=
    Time.isDate_of_datePrefix? (by decide)
  have htime : IsClock IsField ['1', '0', ':', '3', '0'] ⟨10, 30, 0, 0⟩ :=
    Or.inl (@Time.IsShortClock.mk IsField ['1', '0'] ['3', '0'] 10 30
      (.of_two (by decide) (by decide)) (.of_two (by decide) (by decide)) (by decide))
  have hoffset : IsOffset ['+', '0', '2', ':', '0', '0'] 120 :=
    .east (@Time.IsSpan.mk ['0', '2'] ['0', '0'] 2 0 (.of_two (by decide) (by decide))
      (.of_two (by decide) (by decide)) (by decide) (by decide))
  refine ⟨⟨?_, by decide, by decide⟩, ?_, by decide⟩
  · rw [hcs]
    exact .zoned hdate (Or.inl rfl) htime hoffset
  · intro m hm
    have hlength : (Text.trimmed "2024-03-15T1:5".toList).length = 14 := by decide
    have hbounds := hm.length
    omega

end RecordLogic.Value
