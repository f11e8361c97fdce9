import RecordLogic.Proofs.Time.Local
import RecordLogic.Proofs.Time.Seasons

namespace RecordLogic.Time

variable {z : Zone} {r offset : Int} {nanos : Nat} {leap : Bool} {time : ClockTime}

theorem nanos_ofParts (seconds : Int) (leap : Bool) (h : nanos < 1_000_000_000) :
    (Instant.ofParts seconds nanos leap).nanos = nanos :=
  Nat.mod_eq_of_lt h

theorem leap_ofParts (seconds : Int) (nanos : Nat) (leap : Bool) :
    (Instant.ofParts seconds nanos leap).leap = leap :=
  rfl

theorem subNanos_of_whole {t : Instant} (hnanos : t.nanos = 0) (hleap : t.leap = false) :
    t.subNanos = 0 := by
  rw [Instant.subNanos, hnanos, hleap]
  rfl

namespace Zone

/-- The time of day that the local clock shows; in a leap second it shows one second more. -/
def clockOf (z : Zone) (t : Instant) : ClockTime :=
  let n := (z.secondOf t).toNat
  ⟨n / 3600, n / 60 % 60, n % 60 + if t.leap then 1 else 0, t.nanos⟩

theorem clockOf_eq {t : Instant} (hvalid : time.isValid = true)
    (hsecond : z.secondOf t = time.ofDay) (hnanos : t.nanos = time.nanos)
    (hleap : t.leap = time.isLeap) : z.clockOf t = time := by
  obtain ⟨hour, minute, second, nanos⟩ := time
  simp only [ClockTime.isValid, Bool.and_eq_true, decide_eq_true_eq] at hvalid
  simp only [ClockTime.ofDay] at hsecond
  simp only [clockOf, hsecond, hnanos, hleap, ClockTime.isLeap, Int.toNat_natCast,
    ClockTime.mk.injEq, decide_eq_true_eq]
  refine ⟨by omega, by omega, ?_, trivial⟩
  split <;> omega

theorem parts_of_clockOf_zero {t : Instant} (h : z.clockOf t = ⟨0, 0, 0, 0⟩) :
    z.secondOf t = 0 ∧ t.nanos = 0 ∧ t.leap = false := by
  simp only [clockOf, ClockTime.mk.injEq] at h
  obtain ⟨hhour, hminute, hsecond, hnanos⟩ := h
  have hleap : t.leap = false := by
    cases hmark : t.leap with
    | false => rfl
    | true => simp [hmark] at hsecond
  refine ⟨?_, hnanos, hleap⟩
  simp only [secondOf] at hhour hminute hsecond ⊢
  omega

/-- The readings that the clock shows at some time are those that it is not put forward over. -/
theorem exists_readingOf_iff (h : z.Regular) : (∃ t, z.readingOf t = r) ↔ ¬z.Skipped r := by
  rw [← exists_inForce_iff h]
  constructor
  · rintro ⟨t, rfl⟩
    exact ⟨_, (offsetAt_eq_iff h t.seconds _).mp rfl⟩
  · rintro ⟨offset, hforce⟩
    have hoffset : z.offsetAt (r - offset) = offset := by
      rw [offsetAt_eq_iff h, Int.sub_add_cancel]
      exact hforce
    refine ⟨.ofParts (r - offset) 0 false, ?_⟩
    rw [readingOf, seconds_ofParts, hoffset, Int.sub_add_cancel]

/-- What the clock shows once leads back to when it was shown. -/
theorem instantOf?_readingOf (h : z.Regular) {t : Instant} (hoverlap : ¬z.InOverlap (z.readingOf t))
    (nanos : Nat) (leap : Bool) :
    z.instantOf? (z.readingOf t) nanos leap = some (.ofParts t.seconds nanos leap) := by
  have hforce : z.InForce (z.readingOf t) (z.offsetAt t.seconds) :=
    (offsetAt_eq_iff h t.seconds _).mp rfl
  have hseconds : z.readingOf t - z.offsetAt t.seconds = t.seconds := by
    rw [readingOf, Int.add_sub_cancel]
  rw [instantOf?, offsetOf?_of_inForce h hforce hoverlap, Option.map_some, hseconds]

/-- A date and a time of day that the clock shows once lead to an instant that shows them. -/
theorem exists_instantOf? (h : z.Regular) {date : Date} (hdate : date.isValid = true)
    (htime : time.isValid = true) (hnanos : time.nanos < 1_000_000_000)
    (hshown : ∃ t, z.readingOf t = 86400 * date.dayNumber + time.ofDay)
    (hoverlap : ¬z.InOverlap (86400 * date.dayNumber + time.ofDay)) :
    ∃ e, z.instantOf? (86400 * date.dayNumber + time.ofDay) time.nanos time.isLeap = some e ∧
      z.dateOf e = date ∧ z.clockOf e = time := by
  obtain ⟨t, ht⟩ := hshown
  have hread := instantOf?_readingOf h (ht ▸ hoverlap) time.nanos time.isLeap
  have hreading : z.readingOf (.ofParts t.seconds time.nanos time.isLeap) =
      86400 * date.dayNumber + time.ofDay := by
    rw [← ht, readingOf, seconds_ofParts, readingOf]
  have hday := ofDay_lt htime
  rw [ht] at hread
  refine ⟨_, hread, ?_, clockOf_eq htime ?_ (nanos_ofParts _ _ hnanos)
    (leap_ofParts _ _ _)⟩
  · have hnumber : (86400 * date.dayNumber + time.ofDay) / 86400 = date.dayNumber := by omega
    rw [dateOf, hreading, hnumber, Date.ofDayNumber_dayNumber hdate]
  · rw [secondOf, hreading]
    omega

/-- The offsets of a zone. -/
def offsets : Zone → List Int
  | fixed only => [only]
  | seasonal standard summer _ _ => [standard, summer]

theorem offsetAt_mem_offsets (z : Zone) (seconds : Int) : z.offsetAt seconds ∈ z.offsets := by
  cases z with
  | fixed only => exact List.mem_singleton_self only
  | seasonal standard summer start finish =>
    simp only [offsetAt, offsets]
    split <;> split <;> simp

theorem mem_offsets_of_offsetOf? (h : z.offsetOf? r = some offset) : offset ∈ z.offsets := by
  cases z with
  | fixed only =>
    cases h
    exact List.mem_singleton_self offset
  | seasonal standard summer start finish =>
    simp only [offsetOf?] at h
    split at h
    · cases h
    · split at h <;> split at h <;> cases h <;> simp [offsets]

theorem Posix.bounds_of_clock? {cs rest : List Char} {n : Int}
    (h : Posix.clock? cs = some (n, rest)) : 0 ≤ n ∧ n ≤ 86400 := by
  simp only [Posix.clock?, Option.bind_eq_bind, Option.bind_eq_some_iff] at h
  obtain ⟨hour, -, minute, -, second, -, h⟩ := h
  split at h
  · rename_i hmost
    cases h
    simp only [Bool.and_eq_true, decide_eq_true_eq] at hmost
    omega
  · cases h

theorem Posix.natAbs_of_offset? {cs rest : List Char} {n : Int}
    (h : Posix.offset? cs = some (n, rest)) : n.natAbs < 86400 := by
  simp only [Posix.offset?, Option.bind_eq_bind, Option.bind_eq_some_iff] at h
  obtain ⟨⟨seconds, rest'⟩, hclock, h⟩ := h
  have hbounds := Posix.bounds_of_clock? hclock
  split at h
  · cases h
    split <;> omega
  · cases h

/-- Every zone that can be read has offsets of less than a day. -/
theorem natAbs_of_read? {s : String} (h : Posix.read? s = some z) :
    ∀ offset ∈ z.offsets, offset.natAbs < 86400 := by
  simp only [Posix.read?, Option.bind_eq_bind, Option.bind_eq_some_iff] at h
  obtain ⟨cs, -, ⟨standard, rest⟩, hoffset, h⟩ := h
  have hstandard := Posix.natAbs_of_offset? hoffset
  split at h
  · cases h
    simpa [offsets] using hstandard
  · simp only [Posix.seasonal?, Option.bind_eq_bind, Option.bind_eq_some_iff] at h
    obtain ⟨cs, -, ⟨summer, cs⟩, -, ⟨start, cs⟩, -, ⟨finish, cs⟩, -, h⟩ := h
    split at h
    · rename_i hmost
      cases h
      simp only [Bool.and_eq_true, decide_eq_true_eq] at hmost
      simp only [offsets, List.forall_mem_cons]
      refine ⟨hstandard, ?_, by simp⟩
      omega
    · cases h

example : Posix.read? "EST5EDT,M3.2.0,M11.1.0" = some eastern := by decide

/-- What the local clock reads at the start of its day. -/
def midnightOf (z : Zone) (now : Instant) : Int :=
  86400 * (z.readingOf now / 86400)

theorem midnightOf_eq (z : Zone) (now : Instant) :
    z.midnightOf now = 86400 * (z.dateOf now).dayNumber := by
  rw [midnightOf, dateOf, Date.dayNumber_ofDayNumber]

theorem midnightOf_eq_iff {a b : Instant} : z.midnightOf a = z.midnightOf b ↔
    z.dateOf a = z.dateOf b := by
  constructor
  · intro h
    have hsame : z.readingOf a / 86400 = z.readingOf b / 86400 := by
      simp only [midnightOf] at h
      omega
    rw [dateOf, hsame, dateOf]
  · intro h
    rw [midnightOf_eq, midnightOf_eq, h]

theorem midnightOf_of_midnight {now t : Instant} (h : z.readingOf t = z.midnightOf now) :
    z.midnightOf t = z.midnightOf now := by
  rw [midnightOf, h, midnightOf]
  omega

/-- The clock shows the start of its day, and shows it once. -/
def HasMidnight (z : Zone) (now : Instant) : Prop :=
  (∃ t, t.inRange = true ∧ z.readingOf t = z.midnightOf now) ∧ ¬z.InOverlap (z.midnightOf now)

theorem startOfDay_eq (h : z.Regular) {now t : Instant} (ht : t.inRange = true)
    (hreading : z.readingOf t = z.midnightOf now) (hoverlap : ¬z.InOverlap (z.midnightOf now)) :
    z.startOfDay now = .ofParts t.seconds 0 false := by
  have hread := instantOf?_readingOf h (hreading ▸ hoverlap) 0 false
  have hrange : (Instant.ofParts t.seconds 0 false).inRange = true := by
    rw [Instant.inRange, Instant.day, seconds_ofParts]
    exact ht
  change ((z.instantOf? (z.midnightOf now) 0 false).filter (·.inRange)).getD now = _
  rw [← hreading, hread, Option.filter_some, if_pos hrange, Option.getD_some]

/-- The start of a day is the instant at which the clock shows it. -/
theorem startOfDay_spec (h : z.Regular) {now : Instant} (hmidnight : z.HasMidnight now) :
    (z.startOfDay now).inRange = true ∧ z.readingOf (z.startOfDay now) = z.midnightOf now ∧
      (z.startOfDay now).nanos = 0 ∧ (z.startOfDay now).leap = false := by
  obtain ⟨⟨t, ht, hreading⟩, hoverlap⟩ := hmidnight
  rw [startOfDay_eq h ht hreading hoverlap]
  refine ⟨?_, ?_, nanos_ofParts _ _ (by decide), leap_ofParts _ _ _⟩
  · rw [Instant.inRange, Instant.day, seconds_ofParts]
    exact ht
  · rw [readingOf, seconds_ofParts]
    exact hreading

theorem startOfDay_congr (h : z.Regular) {now other : Instant} (hmidnight : z.HasMidnight now)
    (heq : z.midnightOf other = z.midnightOf now) : z.startOfDay other = z.startOfDay now := by
  obtain ⟨⟨t, ht, hreading⟩, hoverlap⟩ := hmidnight
  rw [startOfDay_eq h ht hreading hoverlap, startOfDay_eq h ht (heq ▸ hreading) (heq ▸ hoverlap)]

theorem seconds_le_of_midnight (h : z.Regular) {now t : Instant}
    (hreading : z.readingOf t = z.midnightOf now) (hoverlap : ¬z.InOverlap (z.midnightOf now)) :
    t.seconds ≤ now.seconds := by
  have hyear : yearOfReading (z.midnightOf now) = yearOfReading (z.readingOf now) := by
    have hday : z.midnightOf now / 86400 = z.readingOf now / 86400 := by
      rw [midnightOf]
      omega
    rw [yearOfReading, hday, yearOfReading]
  have hle : z.midnightOf now ≤ z.readingOf now := by
    rw [midnightOf]
    omega
  have hforce : z.InForce (z.midnightOf now) (z.offsetAt t.seconds) :=
    hreading ▸ (offsetAt_eq_iff h t.seconds _).mp rfl
  have hforce' : z.InForce (z.readingOf now) (z.offsetAt now.seconds) :=
    (offsetAt_eq_iff h now.seconds _).mp rfl
  have hsub := sub_le_of_inForce h hyear hle hforce hforce' hoverlap
  rw [← hreading] at hsub
  simp only [readingOf] at hsub
  omega

/-- The start of a day is the instant itself or midnight at some offset. -/
theorem startOfDay_cases (z : Zone) (now : Instant) : z.startOfDay now = now ∨
    ∃ offset ∈ z.offsets, z.startOfDay now = .ofParts (z.midnightOf now - offset) 0 false ∧
      (z.startOfDay now).inRange = true := by
  have hstart : z.startOfDay now =
      ((z.instantOf? (z.midnightOf now) 0 false).filter (·.inRange)).getD now := rfl
  cases hfilter : (z.instantOf? (z.midnightOf now) 0 false).filter (·.inRange) with
  | none =>
    rw [hfilter] at hstart
    exact Or.inl hstart
  | some t =>
    rw [hfilter, Option.getD_some] at hstart
    obtain ⟨hread, hrange⟩ := Option.filter_eq_some_iff.mp hfilter
    obtain ⟨offset, hoffset, rfl⟩ := Option.map_eq_some_iff.mp hread
    rw [hstart]
    exact Or.inr ⟨offset, mem_offsets_of_offsetOf? hoffset, rfl, hrange⟩

theorem inRange_startOfDay (z : Zone) {now : Instant} (h : now.inRange = true) :
    (z.startOfDay now).inRange = true := by
  rcases z.startOfDay_cases now with hnow | ⟨offset, -, -, hrange⟩
  · rw [hnow]
    exact h
  · exact hrange

/-- The universal midnight before a local day comes before its start, with any offset. -/
theorem lt_startOfDay (h : ∀ offset ∈ z.offsets, offset.natAbs < 86400) (now : Instant) :
    z.midnightOf now - 86400 < (z.startOfDay now).seconds := by
  rcases z.startOfDay_cases now with hnow | ⟨offset, hmem, hmidnight, -⟩
  · have hoffset := h _ (z.offsetAt_mem_offsets now.seconds)
    rw [hnow, midnightOf, readingOf]
    omega
  · have hoffset := h offset hmem
    rw [hmidnight, seconds_ofParts]
    omega

/-- The clock is only ever changed at two o'clock, by less than two hours. -/
def ChangesAtTwo : Zone → Prop
  | fixed _ => True
  | seasonal standard summer start finish =>
    start.second = 7200 ∧ finish.second = 7200 ∧ summer < standard + 7200

/-- A clock that is changed at two o'clock shows every midnight once. -/
theorem midnight_of_changesAtTwo (htwo : z.ChangesAtTwo) (day : Int) :
    ¬z.Skipped (86400 * day) ∧ ¬z.InOverlap (86400 * day) := by
  cases z with
  | fixed only => exact ⟨id, id⟩
  | seasonal standard summer start finish =>
    obtain ⟨hstart, hfinish, hless⟩ := htwo
    simp only [Skipped, InOverlap, Changeover.reading, hstart, hfinish]
    omega

theorem sub_lt_of_changesAtTwo (h : z.Regular) (htwo : z.ChangesAtTwo) {s offset' : Int}
    (hr : z.InForce r offset) (hs : z.InForce s offset') : offset - offset' < 7200 := by
  cases z with
  | fixed only =>
    obtain rfl : offset = only := hr
    obtain rfl : offset' = offset := hs
    omega
  | seasonal standard summer start finish =>
    obtain ⟨-, -, hforward, -⟩ := h
    obtain ⟨-, -, hless⟩ := htwo
    simp only [InForce] at hr hs
    split at hr <;> split at hs <;> omega

/-- A day that is not the first of all or the one after it starts less than 26 hours ago. -/
theorem hasMidnight_of_changesAtTwo (h : z.Regular) (htwo : z.ChangesAtTwo) {now : Instant}
    (hnow : now.inRange = true) (hday : Date.first.dayNumber + 2 ≤ now.day) :
    z.HasMidnight now := by
  obtain ⟨hshown, hoverlap⟩ := midnight_of_changesAtTwo htwo (z.readingOf now / 86400)
  obtain ⟨t, ht⟩ := (exists_readingOf_iff h).mpr hshown
  refine ⟨⟨t, ?_, ht⟩, hoverlap⟩
  have hle : t.seconds ≤ now.seconds := seconds_le_of_midnight h ht hoverlap
  have hsub : z.offsetAt t.seconds - z.offsetAt now.seconds < 7200 :=
    sub_lt_of_changesAtTwo h htwo ((offsetAt_eq_iff h t.seconds _).mp rfl)
      ((offsetAt_eq_iff h now.seconds _).mp rfl)
  rw [Instant.inRange_iff] at hnow ⊢
  rw [dayNumber_first] at hday
  simp only [Instant.day] at hnow hday ⊢
  simp only [readingOf] at ht
  omega

end Zone

end RecordLogic.Time
