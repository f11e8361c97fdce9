import RecordLogic.Number.Digits
import RecordLogic.Proofs.Text.Runs

namespace RecordLogic.Number

theorem isDigit_eq (c : Char) : isDigit c = c.isDigit := rfl

theorem bounds_of_isDigit {c : Char} (h : isDigit c = true) : 48 ≤ c.toNat ∧ c.toNat ≤ 57 := by
  simp only [isDigit, Bool.and_eq_true, decide_eq_true_eq] at h
  exact h

theorem digitValue_le {c : Char} (h : isDigit c = true) : digitValue c ≤ 9 := by
  have hbounds := bounds_of_isDigit h
  have hzero : '0'.toNat = 48 := rfl
  rw [digitValue, hzero]
  omega

theorem isBlank_of_isDigit {c : Char} (h : isDigit c = true) : Text.isBlank c = false := by
  have hbounds := bounds_of_isDigit h
  simp [Text.isBlank]
  omega

theorem isDigit_of_mem_toDigits {c : Char} {n : Nat} (h : c ∈ Nat.toDigits 10 n) :
    isDigit c = true :=
  Nat.isDigit_of_mem_toDigits (by decide) (by decide) h

theorem all_isDigit_toDigits (n : Nat) : (Nat.toDigits 10 n).all isDigit = true :=
  List.all_eq_true.mpr fun _ hc => isDigit_of_mem_toDigits hc

theorem ofDigits_toDigits (n : Nat) : ofDigits (Nat.toDigits 10 n) = n :=
  Nat.ofDigitChars_ten_toDigits

theorem ofDigits_append_zeros (k : Nat) (cs : List Char) :
    ofDigits (List.replicate k '0' ++ cs) = ofDigits cs := by
  induction k with
  | zero => rfl
  | succ k ih => exact ih

theorem ofDigits_replicate_zero (k : Nat) : ofDigits (List.replicate k '0') = 0 := by
  rw [← List.append_nil (List.replicate k '0'), ofDigits_append_zeros]
  rfl

theorem foldl_digits (n : Nat) (cs : List Char) :
    cs.foldl (fun n c => 10 * n + digitValue c) n = n * Nat.pow 10 cs.length + ofDigits cs := by
  induction cs generalizing n with
  | nil => exact (Nat.mul_one n).symm
  | cons c cs ih =>
    have hhead : ofDigits (c :: cs) = digitValue c * Nat.pow 10 cs.length + ofDigits cs := by
      rw [ofDigits, List.foldl_cons, ih, Nat.mul_zero, Nat.zero_add]
    have hpow : Nat.pow 10 (c :: cs).length = Nat.pow 10 cs.length * 10 := rfl
    rw [List.foldl_cons, ih, hhead, hpow, Nat.add_mul, Nat.add_assoc, Nat.mul_comm 10 n,
      Nat.mul_assoc n, Nat.mul_comm 10]

/-- Digits that follow move those before them up. -/
theorem ofDigits_append (cs ds : List Char) :
    ofDigits (cs ++ ds) = ofDigits cs * Nat.pow 10 ds.length + ofDigits ds := by
  rw [ofDigits, List.foldl_append, foldl_digits]
  rfl

theorem ofDigits_lt {cs : List Char} (h : cs.all isDigit = true) :
    ofDigits cs < Nat.pow 10 cs.length := by
  induction cs with
  | nil => decide
  | cons c cs ih =>
    rw [List.all_cons, Bool.and_eq_true] at h
    have hdigit := digitValue_le h.1
    have hrest := ih h.2
    have hhead : ofDigits (c :: cs) = digitValue c * Nat.pow 10 cs.length + ofDigits cs := by
      rw [← List.singleton_append, ofDigits_append]
      simp [ofDigits]
    have hpow : Nat.pow 10 (c :: cs).length = Nat.pow 10 cs.length * 10 := rfl
    have hmul := Nat.mul_le_mul_right (Nat.pow 10 cs.length) hdigit
    omega

theorem takeDigits_append_of_stops {ds rest : List Char} (hds : ds.all isDigit = true)
    (hrest : Text.Stops isDigit rest) : takeDigits (ds ++ rest) = (ds, rest) := by
  rw [takeDigits, Text.takeWhile_append_of_stops hds hrest,
    Text.dropWhile_append_of_stops hds hrest]

/-- A number other than zero has no leading zeros. -/
theorem head?_toDigits_of_pos {n : Nat} (h : 0 < n) : (Nat.toDigits 10 n).head? ≠ some '0' := by
  induction n using Nat.strongRecOn with
  | ind n ih =>
    rw [Nat.toDigits_eq_if (by decide)]
    split
    · rename_i hsmall
      have hdigit : ∀ k < 10, 0 < k → Nat.digitChar k ≠ '0' := by decide
      simpa using hdigit n hsmall h
    · have hrest := ih (n / 10) (by omega) (by omega)
      obtain ⟨c, cs, hcs⟩ :=
        List.exists_cons_of_ne_nil (Nat.toDigits_ne_nil (n := n / 10) (b := 10))
      rw [hcs] at hrest ⊢
      exact hrest

section Padded

variable {width n : Nat}

theorem length_padded (hwidth : 0 < width) (h : n < Nat.pow 10 width) :
    (padded width n).length = width := by
  have hlength := (Nat.length_toDigits_le_iff (b := 10) (by decide) hwidth).mpr h
  simp only [padded, List.length_append, List.length_replicate]
  omega

theorem all_isDigit_padded (width n : Nat) : (padded width n).all isDigit = true := by
  rw [padded, List.all_append, List.all_replicate, Bool.and_eq_true, List.all_eq_true]
  exact ⟨by split <;> rfl, fun c hc => isDigit_of_mem_toDigits hc⟩

theorem ofDigits_padded (width n : Nat) : ofDigits (padded width n) = n := by
  rw [padded, ofDigits_append_zeros, ofDigits_toDigits]

end Padded

end RecordLogic.Number
