import RecordLogic.Proofs.Number.Digits
import RecordLogic.Time.DateLike

namespace RecordLogic.Time

open Number (isDigit ofDigits)

variable {cs fs rest : List Char} {c : Char} {n k : Nat} {offset : Int}

/-- The characters are `k` decimal digits. -/
def IsDigits (k : Nat) (cs : List Char) : Prop :=
  cs.length = k ∧ cs.all isDigit = true

/-- A number of two digits. -/
def IsField (cs : List Char) (n : Nat) : Prop :=
  IsDigits 2 cs ∧ ofDigits cs = n

/-- A number of one or two digits that may have blanks before it. -/
def IsLooseField (cs : List Char) (n : Nat) : Prop :=
  ∃ blanks ds, cs = blanks ++ ds ∧ blanks.all Text.isBlank = true ∧
    (IsDigits 1 ds ∨ IsDigits 2 ds) ∧ ofDigits ds = n

theorem IsField.of_two {a b : Char} {n : Nat} (hdigits : [a, b].all isDigit = true)
    (hn : ofDigits [a, b] = n) : IsField [a, b] n :=
  ⟨⟨rfl, hdigits⟩, hn⟩

theorem IsField.loose (h : IsField cs n) : IsLooseField cs n :=
  ⟨[], cs, rfl, rfl, Or.inr h.1, h.2⟩

theorem isDigits_one_iff : IsDigits 1 cs ↔ ∃ a, cs = [a] ∧ isDigit a = true := by
  constructor
  · rintro ⟨hlength, hall⟩
    obtain ⟨a, rfl⟩ := List.length_eq_one_iff.mp hlength
    exact ⟨a, rfl, by simpa using hall⟩
  · rintro ⟨a, rfl, ha⟩
    exact ⟨rfl, by simpa using ha⟩

theorem isDigits_two_iff :
    IsDigits 2 cs ↔ ∃ a b, cs = [a, b] ∧ isDigit a = true ∧ isDigit b = true := by
  constructor
  · rintro ⟨hlength, hall⟩
    rcases cs with _ | ⟨a, _ | ⟨b, _ | ⟨c, cs⟩⟩⟩ <;> simp at hlength
    exact ⟨a, b, rfl, by simpa using hall⟩
  · rintro ⟨a, b, rfl, hab⟩
    exact ⟨rfl, by simpa using hab⟩

/-- Digits are not blank. -/
theorem IsDigits.stops (h : IsDigits (k + 1) cs) (rest : List Char) :
    Text.Stops Text.isBlank (cs ++ rest) := by
  obtain ⟨hlength, hall⟩ := h
  cases cs with
  | nil => cases hlength
  | cons c cs =>
    rw [List.all_cons, Bool.and_eq_true] at hall
    exact Text.stops_cons.mpr (Number.isBlank_of_isDigit hall.1)

theorem twoDigits?_append (h : IsField fs n) (rest : List Char) :
    twoDigits? (fs ++ rest) = some (n, rest) := by
  obtain ⟨hdigits, rfl⟩ := h
  obtain ⟨a, b, rfl, ha, hb⟩ := isDigits_two_iff.mp hdigits
  simp [twoDigits?, ha, hb]

theorem exists_of_twoDigits? (h : twoDigits? cs = some (n, rest)) :
    ∃ fs, cs = fs ++ rest ∧ IsField fs n := by
  rw [twoDigits?.eq_def] at h
  split at h
  · rename_i a b tail
    simp only [Option.ite_none_right_eq_some, Bool.and_eq_true, Option.some.injEq,
      Prod.mk.injEq] at h
    obtain ⟨hab, hn, rfl⟩ := h
    exact ⟨[a, b], rfl, isDigits_two_iff.mpr ⟨a, b, rfl, hab⟩, hn⟩
  · cases h

theorem fewDigits?_append (h : IsLooseField fs n) (hrest : Text.Stops isDigit rest) :
    fewDigits? (fs ++ rest) = some (n, rest) := by
  obtain ⟨blanks, ds, rfl, hblanks, hdigits, rfl⟩ := h
  have htake : ((ds ++ rest).take 2).takeWhile isDigit = ds := by
    rcases hdigits with hone | htwo
    · obtain ⟨a, rfl, ha⟩ := isDigits_one_iff.mp hone
      have hnone : Text.Stops isDigit (rest.take 1) := by
        cases rest with
        | nil => exact hrest
        | cons c cs => exact hrest
      have hone : ([a] ++ rest.take 1).takeWhile isDigit = [a] :=
        Text.takeWhile_append_of_stops (by simpa using ha) hnone
      exact hone
    · obtain ⟨a, b, rfl, ha, hb⟩ := isDigits_two_iff.mp htwo
      simp [ha, hb]
  have hstops : Text.Stops Text.isBlank (ds ++ rest) :=
    hdigits.elim (·.stops rest) (·.stops rest)
  have hne : ds ≠ [] := by
    rintro rfl
    rcases hdigits with ⟨hlength, -⟩ | ⟨hlength, -⟩ <;> cases hlength
  simp only [fewDigits?]
  rw [List.append_assoc, Text.dropWhile_append_of_stops hblanks hstops, htake]
  simp [hne]

theorem exists_of_fewDigits? (h : fewDigits? cs = some (n, rest)) :
    ∃ fs, cs = fs ++ rest ∧ IsLooseField fs n := by
  simp only [fewDigits?] at h
  have hsplit : cs = cs.takeWhile Text.isBlank ++ cs.dropWhile Text.isBlank :=
    List.takeWhile_append_dropWhile.symm
  generalize cs.dropWhile Text.isBlank = tail at h hsplit
  split at h
  · cases h
  · rename_i hne
    simp only [Option.some.injEq, Prod.mk.injEq] at h
    obtain ⟨hn, rfl⟩ := h
    have hprefix : ((tail.take 2).takeWhile isDigit) <+: tail :=
      (List.takeWhile_prefix _).trans (List.take_prefix _ _)
    have hlength : ((tail.take 2).takeWhile isDigit).length ≤ 2 :=
      Nat.le_trans (List.takeWhile_prefix _).length_le (List.length_take_le _ _)
    have hall : ((tail.take 2).takeWhile isDigit).all isDigit = true := List.all_takeWhile
    generalize (tail.take 2).takeWhile isDigit = ds at hne hn hprefix hlength hall ⊢
    have hpos : 0 < ds.length := List.length_pos_iff.mpr (by simpa using hne)
    refine ⟨cs.takeWhile Text.isBlank ++ ds, ?_, _, ds, rfl, List.all_takeWhile, ?_, hn⟩
    · rw [List.append_assoc, List.prefix_iff_eq_append.mp hprefix]
      exact hsplit
    · by_cases hone : ds.length = 1
      · exact Or.inl ⟨hone, hall⟩
      · exact Or.inr ⟨by omega, hall⟩

theorem expect?_eq_some_iff : expect? c cs = some rest ↔ cs = c :: rest := by
  cases cs with
  | nil => simp [expect?]
  | cons d cs => simp [expect?, eq_comm]

/-- Nothing, or a point and digits; the first nine count, in nanoseconds. -/
inductive IsFraction : List Char → Nat → Prop where
  | none : IsFraction [] 0
  | some {ds : List Char} : ds ≠ [] → ds.all isDigit = true →
    IsFraction ('.' :: ds) (ofDigits ((ds ++ List.replicate 9 '0').take 9))

theorem ofDigits_take_nine (ds : List Char) :
    ofDigits (ds.take 9) * Nat.pow 10 (9 - (ds.take 9).length) =
      ofDigits ((ds ++ List.replicate 9 '0').take 9) := by
  have hlength : min (9 - ds.length) 9 = 9 - min 9 ds.length := by omega
  rw [List.take_append, List.take_replicate, Number.ofDigits_append,
    Number.ofDigits_replicate_zero, Nat.add_zero, List.length_replicate, List.length_take, hlength]

/-- A fraction is shorter than a second. -/
theorem IsFraction.lt (h : IsFraction cs n) : n < 1_000_000_000 := by
  cases h with
  | none => decide
  | @some ds hne hall =>
    have hdigits : ((ds ++ List.replicate 9 '0').take 9).all isDigit = true := by
      rw [List.all_eq_true] at hall ⊢
      intro c hc
      rcases List.mem_append.mp (List.mem_of_mem_take hc) with hmem | hmem
      · exact hall c hmem
      · rw [List.eq_of_mem_replicate hmem]
        rfl
    have hlength : ((ds ++ List.replicate 9 '0').take 9).length = 9 := by simp
    have hlt := Number.ofDigits_lt hdigits
    rwa [hlength] at hlt

/-- The characters of fractions. -/
def isFractionChar (c : Char) : Bool :=
  isDigit c || c = '.'

theorem fraction?_append (h : IsFraction fs n) (hrest : Text.Stops isFractionChar rest) :
    fraction? (fs ++ rest) = some (n, rest) := by
  cases h with
  | none =>
    cases rest with
    | nil => rfl
    | cons c cs =>
      have hpoint : c ≠ '.' := by
        rintro rfl
        exact absurd (Text.stops_cons.mp hrest) (by decide)
      rw [List.nil_append, fraction?.eq_def]
      split
      · rename_i heq
        cases heq
        contradiction
      · rfl
  | @some ds hne hall =>
    have hstops : Text.Stops isDigit rest := fun c hc => by
      have hnot := hrest c hc
      simp only [isFractionChar, Bool.or_eq_false_iff] at hnot
      exact hnot.1
    have hempty : (ds.take 9).isEmpty = false := by simp [hne]
    rw [List.cons_append, fraction?, Number.takeDigits_append_of_stops hall hstops]
    simp only [hempty, Bool.false_eq_true, if_false, ofDigits_take_nine]

theorem exists_of_fraction? (h : fraction? cs = some (n, rest)) :
    ∃ fs, cs = fs ++ rest ∧ IsFraction fs n := by
  rw [fraction?.eq_def] at h
  split at h
  · rename_i tail
    have happend := Number.takeDigits_append tail
    have hall : (Number.takeDigits tail).1.all isDigit = true := List.all_takeWhile
    generalize Number.takeDigits tail = split at h happend hall
    obtain ⟨ds, after⟩ := split
    simp only at h happend hall
    split at h
    · cases h
    · rename_i hne
      simp only [Option.some.injEq, Prod.mk.injEq] at h
      obtain ⟨rfl, rfl⟩ := h
      rw [ofDigits_take_nine]
      refine ⟨'.' :: ds, by rw [List.cons_append, happend], .some ?_ hall⟩
      rintro rfl
      exact hne rfl
  · cases h
    exact ⟨[], rfl, .none⟩

/-- Hours and minutes of less than a day, in minutes. -/
inductive IsSpan : List Char → Int → Prop where
  | mk {hs ms : List Char} {h m : Nat} : IsField hs h → IsField ms m → h < 24 → m < 60 →
    IsSpan (hs ++ ':' :: ms) (60 * h + m)

/-- An offset, in minutes east of universal time. -/
inductive IsOffset : List Char → Int → Prop where
  | zulu : IsOffset ['Z'] 0
  | east {cs : List Char} {n : Int} : IsSpan cs n → IsOffset ('+' :: cs) n
  | west {cs : List Char} {n : Int} : IsSpan cs n → IsOffset ('-' :: cs) (-n)

/-- An offset that may also have a small `z` or the typographic minus sign. -/
inductive IsLooseOffset : List Char → Int → Prop where
  | strict {cs : List Char} {n : Int} : IsOffset cs n → IsLooseOffset cs n
  | zulu : IsLooseOffset ['z'] 0
  | west {cs : List Char} {n : Int} : IsSpan cs n → IsLooseOffset ('\u2212' :: cs) (-n)

theorem twoDigits?_of_isField (h : IsField fs n) : twoDigits? fs = some (n, []) := by
  have hread := twoDigits?_append h []
  rwa [List.append_nil] at hread

theorem offset?_of_isLooseOffset (h : IsLooseOffset cs offset) : offset? cs = some offset := by
  have hspan {cs : List Char} {n : Int} (hn : IsSpan cs n) : offset? ('+' :: cs) = some n ∧
      offset? ('-' :: cs) = some (-n) ∧ offset? ('\u2212' :: cs) = some (-n) := by
    obtain ⟨hhour, hminute, hh, hm⟩ := hn
    simp [offset?, twoDigits?_append hhour, twoDigits?_of_isField hminute, expect?, hh, hm]
  cases h with
  | strict h =>
    cases h with
    | zulu => rfl
    | east h => exact (hspan h).1
    | west h => exact (hspan h).2.1
  | zulu => rfl
  | west h => exact (hspan h).2.2

theorem isLooseOffset_of_offset? (h : offset? cs = some offset) : IsLooseOffset cs offset := by
  rw [offset?.eq_def] at h
  split at h
  · cases h
    exact .strict .zulu
  · cases h
    exact .zulu
  · rename_i sign rest _ _
    simp only [Option.bind_eq_bind] at h
    have hspan (west : Bool) (hread : ((twoDigits? rest).bind fun p =>
        (expect? ':' p.2).bind fun cs => (twoDigits? cs).bind fun q =>
          if (q.2.isEmpty && decide (p.1 < 24) && decide (q.1 < 60)) = true then
            some (if west = true then -(60 * (p.1 : Int) + q.1) else 60 * p.1 + q.1)
          else none) = some offset) : ∃ n, IsSpan rest n ∧ offset = if west then -n else n := by
      simp only [Option.bind_eq_some_iff] at hread
      obtain ⟨⟨hour, _⟩, hhour, _, hcolon, ⟨minute, _⟩, hminute, hread⟩ := hread
      obtain ⟨hs, rfl, hhs⟩ := exists_of_twoDigits? hhour
      obtain rfl := expect?_eq_some_iff.mp hcolon
      obtain ⟨ms, rfl, hms⟩ := exists_of_twoDigits? hminute
      simp only [Option.ite_none_right_eq_some, Bool.and_eq_true, decide_eq_true_eq,
        List.isEmpty_iff] at hread
      obtain ⟨⟨⟨rfl, hh⟩, hm⟩, hread⟩ := hread
      rw [List.append_nil]
      exact ⟨_, ⟨hhs, hms, hh, hm⟩, (Option.some.inj hread).symm⟩
    split at h
    · rename_i hplus
      obtain ⟨n, hn, rfl⟩ := hspan false h
      exact hplus ▸ .strict (.east hn)
    · split at h
      · rename_i hminus
        obtain ⟨n, hn, rfl⟩ := hspan true h
        simp only [Bool.or_eq_true, decide_eq_true_eq] at hminus
        rcases hminus with rfl | rfl
        · exact .strict (.west hn)
        · exact .west hn
      · cases h
  · cases h

end RecordLogic.Time
