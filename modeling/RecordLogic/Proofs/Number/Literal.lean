import Mathlib.Data.List.Induction
import RecordLogic.Number.Decimal
import RecordLogic.Proofs.Number.Digits

namespace RecordLogic.Number

variable {cs ds rest sign whole fraction exponent : List Char} {negative : Bool} {e : Int}
  {l : Literal} {c : Char} {base d n : Nat}

/-- Nothing, a plus or a minus. -/
inductive IsSign : List Char → Bool → Prop where
  | none : IsSign [] false
  | plus : IsSign ['+'] false
  | minus : IsSign ['-'] true

/-- Nothing, or an `e` with one or more digits behind it that may have a sign. -/
inductive IsExponent : List Char → Int → Prop where
  | none : IsExponent [] 0
  | some {e : Char} {sign ds : List Char} {negative : Bool} : e = 'e' ∨ e = 'E' →
    IsSign sign negative → ds ≠ [] → ds.all isDigit = true →
    IsExponent (e :: (sign ++ ds)) (if negative then -(ofDigits ds : Int) else ofDigits ds)

/-- The characters write the literal: a sign, digits with at most one point among them and at least
one digit, and an exponent. -/
inductive Literal.Written : List Char → Literal → Prop where
  | whole {sign whole exponent : List Char} {negative : Bool} {e : Int} : IsSign sign negative →
    whole ≠ [] → whole.all isDigit = true → IsExponent exponent e →
    Written (sign ++ (whole ++ exponent)) ⟨negative, whole, [], e⟩
  | point {sign whole fraction exponent : List Char} {negative : Bool} {e : Int} :
    IsSign sign negative → whole ++ fraction ≠ [] → whole.all isDigit = true →
    fraction.all isDigit = true → IsExponent exponent e →
    Written (sign ++ (whole ++ '.' :: (fraction ++ exponent))) ⟨negative, whole, fraction, e⟩

def isSignMark (c : Char) : Bool := c = '+' || c = '-'

theorem takeSign_append (h : IsSign sign negative) (hrest : Text.Stops isSignMark rest) :
    takeSign (sign ++ rest) = (negative, rest) := by
  cases h with
  | plus => rfl
  | minus => rfl
  | none =>
    cases rest with
    | nil => rfl
    | cons c cs =>
      simp only [Text.stops_cons, isSignMark, Bool.or_eq_false_iff, decide_eq_false_iff_not]
        at hrest
      obtain ⟨hplus, hminus⟩ := hrest
      rw [List.nil_append, takeSign.eq_def]
      split <;> simp_all

theorem exists_sign (cs : List Char) :
    ∃ sign, IsSign sign (takeSign cs).1 ∧ cs = sign ++ (takeSign cs).2 := by
  rw [takeSign.eq_def]
  split
  · exact ⟨['+'], .plus, rfl⟩
  · exact ⟨['-'], .minus, rfl⟩
  · exact ⟨[], .none, rfl⟩

theorem not_isSignMark_of_isDigit (h : isDigit c = true) : isSignMark c = false := by
  simp [isSignMark, Text.ne_of_kind '+' h (by decide), Text.ne_of_kind '-' h (by decide)]

theorem stops_isSignMark (hne : ds ≠ []) (hall : ds.all isDigit = true) :
    Text.Stops isSignMark (ds ++ rest) := by
  cases ds with
  | nil => contradiction
  | cons d ds =>
    rw [List.all_cons, Bool.and_eq_true] at hall
    exact Text.stops_cons.mpr (not_isSignMark_of_isDigit hall.1)

theorem readExponent?_eq_some_iff : readExponent? cs = some e ↔ IsExponent cs e := by
  constructor
  · intro h
    cases cs with
    | nil =>
      rw [readExponent?, Option.some.injEq] at h
      exact h ▸ .none
    | cons c cs =>
      rw [readExponent?] at h
      split at h
      · rename_i hmark
        obtain ⟨sign, hsign, hcs⟩ := exists_sign cs
        generalize takeSign cs = split at h hsign hcs
        obtain ⟨negative, ds⟩ := split
        simp only at h hsign hcs
        split at h
        · cases h
        · rename_i hdigits
          simp only [Bool.or_eq_true, Bool.not_eq_true', not_or, Bool.not_eq_false,
            List.isEmpty_iff] at hdigits
          rw [hcs, ← Option.some.inj h]
          exact .some (by simpa using hmark) hsign hdigits.1 hdigits.2
      · cases h
  · intro h
    cases h with
    | none => rfl
    | @some mark sign ds negative hmark hsign hne hall =>
      have hstops : Text.Stops isSignMark (ds ++ []) := stops_isSignMark hne hall
      rw [List.append_nil] at hstops
      rw [readExponent?, if_pos (by simpa using hmark), takeSign_append hsign hstops]
      simp [hne, hall]

/-- Neither digits nor a point stand at the beginning of an exponent. -/
theorem IsExponent.stops (h : IsExponent exponent e) : Text.Stops isDigit exponent := by
  cases h with
  | none => simp [Text.Stops]
  | some hmark => rcases hmark with rfl | rfl <;> exact Text.stops_cons.mpr (by decide)

theorem not_isExponent_point : ¬IsExponent ('.' :: cs) e := by
  intro h
  cases h with
  | some hmark => simp at hmark

theorem readLiteral?_of_written (h : l.Written cs) : readLiteral? cs = some l := by
  cases h with
  | @whole sign whole exponent negative e hsign hne hall hexponent =>
    have hread := readExponent?_eq_some_iff.mpr hexponent
    rw [readLiteral?, takeSign_append hsign (stops_isSignMark hne hall)]
    simp only [takeDigits_append_of_stops hall hexponent.stops]
    split
    · exact absurd hexponent not_isExponent_point
    · simp [hne, hread]
  | @point sign whole fraction exponent negative e hsign hne hwhole hfraction hexponent =>
    have hread := readExponent?_eq_some_iff.mpr hexponent
    have hmark : Text.Stops isSignMark (whole ++ '.' :: (fraction ++ exponent)) := by
      cases whole with
      | nil => exact Text.stops_cons.mpr (by decide)
      | cons d ds => exact stops_isSignMark (List.cons_ne_nil d ds) hwhole
    have hpoint : Text.Stops isDigit ('.' :: (fraction ++ exponent)) :=
      Text.stops_cons.mpr (by decide)
    rw [readLiteral?, takeSign_append hsign hmark]
    simp only [takeDigits_append_of_stops hwhole hpoint,
      takeDigits_append_of_stops hfraction hexponent.stops, hread]
    have hsome : ¬(whole.isEmpty && fraction.isEmpty) = true := by simpa using hne
    rw [if_neg hsome, Option.map_some]

theorem all_takeDigits (cs : List Char) : (takeDigits cs).1.all isDigit = true :=
  List.all_takeWhile

theorem written_of_readLiteral? (h : readLiteral? cs = some l) : l.Written cs := by
  obtain ⟨sign, hsign, hcs⟩ := exists_sign cs
  rw [readLiteral?] at h
  generalize takeSign cs = signed at h hsign hcs
  obtain ⟨negative, body⟩ := signed
  have hwhole := all_takeDigits body
  have hbody := takeDigits_append body
  simp only at h hsign hcs
  generalize takeDigits body = parts at h hwhole hbody
  obtain ⟨whole, rest⟩ := parts
  simp only at h hwhole hbody
  split at h
  · rename_i tail
    have hfraction := all_takeDigits tail
    have htail := takeDigits_append tail
    generalize takeDigits tail = parts at h hfraction htail
    obtain ⟨fraction, exponent⟩ := parts
    simp only at h hfraction htail
    split at h
    · cases h
    · rename_i hsome
      obtain ⟨e, hread, rfl⟩ := Option.map_eq_some_iff.mp h
      rw [hcs, ← hbody, ← htail]
      exact .point hsign (by simpa using hsome) hwhole hfraction
        (readExponent?_eq_some_iff.mp hread)
  · simp only [List.isEmpty_nil, Bool.and_true] at h
    split at h
    · cases h
    · rename_i hsome
      obtain ⟨e, hread, rfl⟩ := Option.map_eq_some_iff.mp h
      rw [hcs, ← hbody]
      exact .whole hsign (by simpa using hsome) hwhole (readExponent?_eq_some_iff.mp hread)

/-- A literal is read from exactly the texts that write it. -/
theorem readLiteral?_eq_some_iff : readLiteral? cs = some l ↔ l.Written cs :=
  ⟨written_of_readLiteral?, readLiteral?_of_written⟩

/-- The characters of decimal literals. -/
def isLiteralChar (c : Char) : Bool := isDigit c || isSignMark c || c = '.' || c = 'e' || c = 'E'

theorem all_isLiteralChar_of_digits (h : ds.all isDigit = true) : ds.all isLiteralChar = true := by
  rw [List.all_eq_true] at h ⊢
  intro c hc
  simp [isLiteralChar, h c hc]

theorem IsSign.all_isLiteralChar (h : IsSign sign negative) : sign.all isLiteralChar = true := by
  cases h <;> rfl

theorem IsExponent.all_isLiteralChar (h : IsExponent exponent e) :
    exponent.all isLiteralChar = true := by
  cases h with
  | none => rfl
  | some hmark hsign _ hdigits =>
    rw [List.all_cons, List.all_append, hsign.all_isLiteralChar,
      all_isLiteralChar_of_digits hdigits]
    rcases hmark with rfl | rfl <;> rfl

theorem Literal.Written.all_isLiteralChar (h : l.Written cs) : cs.all isLiteralChar = true := by
  cases h with
  | whole hsign _ hwhole hexponent =>
    simp [List.all_append, hsign.all_isLiteralChar, all_isLiteralChar_of_digits hwhole,
      hexponent.all_isLiteralChar, -List.all_eq_true]
  | point hsign _ hwhole hfraction hexponent =>
    have hpoint : isLiteralChar '.' = true := by decide
    simp [List.all_append, List.all_cons, hsign.all_isLiteralChar,
      all_isLiteralChar_of_digits hwhole, all_isLiteralChar_of_digits hfraction, hpoint,
      hexponent.all_isLiteralChar, -List.all_eq_true]

/-- The digits of bases up to sixteen and their values. -/
def digitValues : List (Char × Nat) :=
  [('0', 0), ('1', 1), ('2', 2), ('3', 3), ('4', 4), ('5', 5), ('6', 6), ('7', 7), ('8', 8),
    ('9', 9), ('a', 10), ('b', 11), ('c', 12), ('d', 13), ('e', 14), ('f', 15), ('A', 10),
    ('B', 11), ('C', 12), ('D', 13), ('E', 14), ('F', 15)]

/-- The characters are digits of the base that write the number. -/
inductive Denotes (base : Nat) : List Char → Nat → Prop where
  | nil : Denotes base [] 0
  | snoc {cs : List Char} {c : Char} {n d : Nat} : Denotes base cs n →
    digitValues.lookup c = some d → d < base → Denotes base (cs ++ [c]) (base * n + d)

/-- The letters that mark a base. -/
def baseMarks : List (Char × Nat) := [('x', 16), ('X', 16), ('o', 8), ('O', 8), ('b', 2), ('B', 2)]

/-- A zero, the mark of a base and one or more digits of the base that write the number. -/
@[mk_iff isBased_iff_exists]
inductive IsBased : List Char → Nat → Prop where
  | mk {mark : Char} {base n : Nat} {ds : List Char} : (mark, base) ∈ baseMarks → ds ≠ [] →
    Denotes base ds n → IsBased ('0' :: mark :: ds) n

theorem lookup_digitValues_ascii : ∀ k < 128,
    baseDigit? 16 (Char.ofNat k) = digitValues.lookup (Char.ofNat k) := by
  decide

theorem baseDigit?_sixteen (c : Char) : baseDigit? 16 c = digitValues.lookup c := by
  by_cases hc : c.toNat < 128
  · have hascii := lookup_digitValues_ascii c.toNat hc
    rwa [Char.ofNat_toNat] at hascii
  · have hnone : digitValues.lookup c = none := by
      have hall : ∀ p ∈ digitValues, p.1.toNat < 128 := by decide
      rw [List.lookup_eq_none_iff]
      intro p hp
      have hne : c ≠ p.1 := fun h => hc (h ▸ hall p hp)
      simpa using hne
    have hnine : ¬c ≤ '9' := fun h => hc (Nat.lt_of_le_of_lt h (by decide))
    have hsmall : ¬c ≤ 'f' := fun h => hc (Nat.lt_of_le_of_lt h (by decide))
    have hcapital : ¬c ≤ 'F' := fun h => hc (Nat.lt_of_le_of_lt h (by decide))
    simp [hnone, baseDigit?, isDigit, hnine, hsmall, hcapital]

theorem baseDigit?_eq (hbase : base ≤ 16) (c : Char) :
    baseDigit? base c = (digitValues.lookup c).filter (· < base) := by
  rw [← baseDigit?_sixteen, baseDigit?, baseDigit?, Option.filter_filter]
  congr 1
  funext d
  rw [← Bool.decide_and]
  exact decide_eq_decide.mpr ⟨fun h => ⟨Nat.lt_of_lt_of_le h hbase, h⟩, fun h => h.2⟩

theorem foldlM_eq_some_iff (hbase : base ≤ 16) : cs.foldlM
    (fun n c => (baseDigit? base c).map (base * n + ·)) 0 = some n ↔ Denotes base cs n := by
  induction cs using List.reverseRecOn generalizing n with
  | nil =>
    rw [List.foldlM_nil]
    constructor
    · intro h
      exact Option.some.inj h ▸ .nil
    · intro h
      generalize hcs : [] = cs at h
      cases h with
      | nil => rfl
      | snoc => simp at hcs
  | append_singleton cs c ih =>
    simp only [List.foldlM_append, List.foldlM_cons, List.foldlM_nil, Option.bind_eq_bind,
      Option.bind_eq_some_iff, bind_pure, Option.map_eq_some_iff]
    constructor
    · rintro ⟨m, hm, d, hd, rfl⟩
      rw [baseDigit?_eq hbase, Option.filter_eq_some_iff] at hd
      exact .snoc (ih.mp hm) hd.1 (by simpa using hd.2)
    · intro h
      generalize hcs : cs ++ [c] = ds at h
      cases h with
      | nil => simp at hcs
      | @snoc cs' c' m d hm hlookup hd =>
        obtain ⟨rfl, hc⟩ := List.append_inj' hcs rfl
        obtain rfl : c = c' := by simpa using hc
        refine ⟨m, ih.mpr hm, d, ?_, rfl⟩
        rw [baseDigit?_eq hbase, Option.filter_eq_some_iff]
        exact ⟨hlookup, by simpa using hd⟩

theorem ofBaseDigits?_eq_some_iff (hbase : base ≤ 16) :
    ofBaseDigits? base cs = some n ↔ cs ≠ [] ∧ Denotes base cs n := by
  rw [ofBaseDigits?, ← foldlM_eq_some_iff hbase]
  cases cs <;> simp

end RecordLogic.Number
