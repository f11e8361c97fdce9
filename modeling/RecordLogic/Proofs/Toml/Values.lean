import RecordLogic.Proofs.Number.Digits
import RecordLogic.Toml.Reader

namespace RecordLogic.Toml

open Text (Stops)

/-- A key that is written without quotes. -/
def IsBare (key : String) : Prop := key.toList ≠ [] ∧ key.toList.all isBareKey = true

instance (key : String) : Decidable (IsBare key) := inferInstanceAs (Decidable (_ ∧ _))

variable {key : String} {cs rest : List Char} {c : Char}

theorem isBlank_of_isBareKey (h : isBareKey c = true) : isBlank c = false := by
  have hspace := Text.ne_of_kind ' ' h (by decide)
  have htab := Text.ne_of_kind '\t' h (by decide)
  simp [isBlank, hspace, htab]

theorem IsBare.exists_cons (h : IsBare key) :
    ∃ c cs, key.toList = c :: cs ∧ isBareKey c = true := by
  obtain ⟨c, cs, hcs⟩ := List.exists_cons_of_ne_nil h.1
  have hall := h.2
  rw [hcs, List.all_cons, Bool.and_eq_true] at hall
  exact ⟨c, cs, hcs, hall.1⟩

theorem skipBlanks_of_stops (h : Stops isBlank cs) : skipBlanks cs = cs :=
  Text.dropWhile_of_stops h

theorem IsBare.keyPart? (h : IsBare key) (hrest : Stops isBareKey rest) :
    keyPart? (key.toList ++ rest) = some (key, rest) := by
  obtain ⟨c, cs, hcs, hc⟩ := h.exists_cons
  have hquote := Text.ne_of_kind '"' hc (by decide)
  have happ := Text.ne_of_kind '\'' hc (by decide)
  have htake := Text.takeWhile_append_of_stops h.2 hrest
  have hdrop := Text.dropWhile_append_of_stops h.2 hrest
  rw [keyPart?.eq_def]
  split
  · simp_all
  · simp_all
  · simp [htake, hdrop, h.1]

/-- A bare key alone before a blank or the end of a header. -/
theorem IsBare.key? (h : IsBare key) {fuel : Nat} (hfuel : 0 < fuel)
    (hrest : Stops isBareKey rest) (hpoint : ∀ cs, skipBlanks rest ≠ '.' :: cs) :
    key? fuel (key.toList ++ rest) = some (([], key), rest) := by
  obtain ⟨fuel, rfl⟩ := Nat.exists_eq_succ_of_ne_zero (Nat.ne_of_gt hfuel)
  simp [Toml.key?, h.keyPart? hrest]

/-- The text of a value that ends with its line. -/
def Written (cs : List Char) (v : Toml) : Prop :=
  Stops isBlank (cs ++ ['\n']) ∧
    ∀ fuel rest, value? (fuel + 1) (cs ++ '\n' :: rest) = some (v, '\n' :: rest)

theorem takeScalar_line (h : cs.all isScalar = true) :
    takeScalar (cs ++ '\n' :: rest) = (cs, '\n' :: rest) := by
  have hend : Stops isScalar ('\n' :: rest) := Text.stops_cons.mpr (by decide)
  rw [takeScalar, Text.takeWhile_append_of_stops h hend, Text.dropWhile_append_of_stops h hend]
  simp

theorem written_of_scalar? {v : Toml} (hne : cs ≠ []) (h : cs.all isScalar = true)
    (hv : scalar? cs = some v) : Written cs v := by
  obtain ⟨c, ds, rfl⟩ := List.exists_cons_of_ne_nil hne
  have hc : isScalar c = true := by
    rw [List.all_cons, Bool.and_eq_true] at h
    exact h.1
  constructor
  · have hspace := Text.ne_of_kind ' ' hc (by decide)
    have htab := Text.ne_of_kind '\t' hc (by decide)
    simp [isBlank, hspace, htab]
  · intro fuel rest
    have hquote := Text.ne_of_kind '"' hc (by decide)
    have happ := Text.ne_of_kind '\'' hc (by decide)
    have hbracket := Text.ne_of_kind '[' hc (by decide)
    have hbrace := Text.ne_of_kind '\x7b' hc (by decide)
    rw [value?.eq_def]
    dsimp only
    split
    case h_5 =>
      rw [takeScalar_line h, hv]
      rfl
    all_goals simp_all

theorem written_bool (b : Bool) : Written (toString b).toList (bool b) := by
  cases b with
  | false => exact written_of_scalar? (by decide) (by decide) rfl
  | true => exact written_of_scalar? (by decide) (by decide) rfl

theorem digits?_of_all {isDigit : Char → Bool} (hline : isDigit '_' = false) (hne : cs ≠ [])
    (h : cs.all isDigit = true) : digits? isDigit cs = some cs := by
  induction cs with
  | nil => exact absurd rfl hne
  | cons c cs ih =>
    rw [List.all_cons, Bool.and_eq_true] at h
    cases cs with
    | nil => simp [digits?, h.1]
    | cons d cs =>
      have hd : d ≠ '_' := by
        rintro rfl
        simp [hline] at h
      have htail := ih (by simp) h.2
      simp [digits?, h.1, htail]

theorem wholeDigits?_toDigits (n : Nat) :
    wholeDigits? (Nat.toDigits 10 n) = some (Nat.toDigits 10 n) := by
  have hall : (Nat.toDigits 10 n).all Number.isDigit = true :=
    List.all_eq_true.mpr fun c hc => Number.isDigit_of_mem_toDigits hc
  rw [wholeDigits?, digits?_of_all (by decide) Nat.toDigits_ne_nil hall, Option.filter_some,
    if_pos]
  rcases Nat.eq_zero_or_pos n with rfl | hpos
  · rfl
  · simp [Number.head?_toDigits_of_pos hpos]

theorem takeSign_of_isDigit (h : Number.isDigit c = true) :
    Number.takeSign (c :: cs) = (false, c :: cs) := by
  have hplus := Text.ne_of_kind '+' h (by decide)
  have hminus := Text.ne_of_kind '-' h (by decide)
  rw [Number.takeSign.eq_def]
  split <;> simp_all

theorem integer?_toDigits {n : Nat} (h : isSigned64 n = true) :
    integer? (Nat.toDigits 10 n) = some (integer n) := by
  have hwhole := wholeDigits?_toDigits n
  have hvalue := Number.ofDigits_toDigits n
  obtain ⟨c, ds, hds⟩ := List.exists_cons_of_ne_nil (Nat.toDigits_ne_nil (n := n) (b := 10))
  have hc : Number.isDigit c = true := Number.isDigit_of_mem_toDigits (n := n) (by simp [hds])
  rw [hds] at hwhole hvalue ⊢
  rw [integer?, takeSign_of_isDigit hc]
  refine Option.bind_eq_some_iff.mpr ⟨c :: ds, hwhole, ?_⟩
  dsimp only
  rw [hvalue, if_neg Bool.false_ne_true, if_pos h]
  rfl

/-- Digits are neither a truth value nor a number of another base. -/
theorem scalar?_of_digits (h : cs.all Number.isDigit = true) {v : Toml}
    (hv : integer? cs = some v) : scalar? cs = some v := by
  have hother {c : Char} (hc : Number.isDigit c = false) : c ∉ cs := fun hmem =>
    Text.ne_of_kind c (List.all_eq_true.mp h c hmem) hc rfl
  rw [scalar?.eq_def]
  split
  · exact absurd (by simp) (hother (c := 't') (by decide))
  · exact absurd (by simp) (hother (c := 'f') (by decide))
  · exact absurd (by simp) (hother (c := 'x') (by decide))
  · exact absurd (by simp) (hother (c := 'o') (by decide))
  · exact absurd (by simp) (hother (c := 'b') (by decide))
  · rw [hv]

theorem written_integer {n : Nat} (h : isSigned64 n = true) :
    Written (toString n).toList (integer n) := by
  have hall : (Nat.toDigits 10 n).all Number.isDigit = true :=
    List.all_eq_true.mpr fun c hc => Number.isDigit_of_mem_toDigits hc
  rw [Nat.toString_eq_repr, Nat.toList_repr]
  refine written_of_scalar? Nat.toDigits_ne_nil (List.all_eq_true.mpr fun c hc => ?_)
    (scalar?_of_digits hall (integer?_toDigits h))
  have hdigit := Number.isDigit_of_mem_toDigits hc
  rw [Number.isDigit_eq] at hdigit
  simp [isScalar, Char.isAlphanum, hdigit]

/-- The characters of a text without escapes. -/
def isOrdinary (c : Char) : Bool := isPlain c && c ≠ '"' && c ≠ '\\'

theorem body?_ordinary {acc : List Char} (h : cs.all isOrdinary = true) {fuel : Nat}
    (hfuel : cs.length < fuel) :
    body? '"' false acc fuel (cs ++ '"' :: rest) =
      some (String.ofList (acc.reverse ++ cs), rest) := by
  induction cs generalizing acc fuel with
  | nil =>
    obtain ⟨fuel, rfl⟩ := Nat.exists_eq_succ_of_ne_zero (Nat.ne_zero_of_lt hfuel)
    simp [body?]
  | cons c cs ih =>
    obtain ⟨fuel, rfl⟩ := Nat.exists_eq_succ_of_ne_zero (Nat.ne_zero_of_lt hfuel)
    rw [List.all_cons, Bool.and_eq_true] at h
    obtain ⟨hc, hcs⟩ := h
    simp only [isOrdinary, Bool.and_eq_true, decide_eq_true_eq] at hc
    obtain ⟨⟨hplain, hquote⟩, hslash⟩ := hc
    have hline := Text.ne_of_kind '\n' hplain (by decide)
    have hreturn := Text.ne_of_kind '\r' hplain (by decide)
    rw [List.cons_append, body?.eq_def]
    dsimp only
    rw [if_neg hquote, if_neg (by simp [hslash]), if_neg hline, if_neg hreturn, if_pos hplain,
      ih hcs (Nat.lt_of_succ_lt_succ hfuel), List.reverse_cons, List.append_assoc,
      List.singleton_append]

theorem quoted?_ordinary (h : cs.all isOrdinary = true) :
    quoted? '"' (cs ++ '"' :: '\n' :: rest) = some (String.ofList cs, '\n' :: rest) := by
  have hline : line? '"' (cs ++ '"' :: '\n' :: rest) =
      some (String.ofList cs, '\n' :: rest) := by
    have hlength : cs.length < (cs ++ '"' :: '\n' :: rest).length + 1 := by
      rw [List.length_append]
      omega
    rw [line?, body?_ordinary h hlength, List.reverse_nil, List.nil_append]
  cases cs with
  | nil => exact hline
  | cons c cs =>
    have hc : c ≠ '"' := by
      rintro rfl
      revert h
      simp [isOrdinary]
    obtain ⟨d, more, hmore⟩ := List.exists_cons_of_ne_nil
      (List.append_ne_nil_of_right_ne_nil cs (List.cons_ne_nil '"' ('\n' :: rest)))
    rw [List.cons_append, hmore] at hline ⊢
    rw [quoted?.eq_def]
    dsimp only
    rw [if_neg (by simp [hc]), hline]

theorem written_text {s : String} (h : s.toList.all isOrdinary = true) :
    Written ('"' :: (s.toList ++ ['"'])) (text s) := by
  refine ⟨Text.stops_cons.mpr (by decide), fun fuel rest => ?_⟩
  simp [value?, quoted?_ordinary h]

end RecordLogic.Toml
