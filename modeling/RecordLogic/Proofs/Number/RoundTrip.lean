import Mathlib
import RecordLogic.Number.Text
import RecordLogic.Proofs.Number.Numeral

namespace RecordLogic.Number

variable {x y : Float} {cs ds sign : List Char} {c : Char} {l : Literal} {negative : Bool}
  {m n : Nat} {e : Int}

theorem ofDigits_append_trailing (ds : List Char) (k : Nat) :
    ofDigits (ds ++ List.replicate k '0') = ofDigits ds * 10 ^ k := by
  rw [ofDigits_append, List.length_replicate, ofDigits_replicate_zero]
  rfl

/-- The digits with a point are a literal of the number that the digits and the place of the point
give. -/
theorem exists_written_positional (hsign : IsSign sign negative) (hne : ds ≠ [])
    (hds : ds.all isDigit = true) (point : Int) : ∃ l : Literal,
      l.Written (sign ++ (positional ds point).toList) ∧ l.negative = negative ∧ l.exponent = 0 ∧
        l.magnitude = ofDigits ds * 10 ^ (point - ds.length) := by
  have hzeros (k : Nat) : (List.replicate k '0').all isDigit = true := by
    rw [List.all_replicate]
    split <;> rfl
  simp only [positional, String.toList_ofList]
  split
  · rename_i hpoint
    have hfraction : (List.replicate (-point).toNat '0' ++ ds).all isDigit = true := by
      rw [List.all_append, hzeros, hds]
      rfl
    refine ⟨⟨negative, ['0'], List.replicate (-point).toNat '0' ++ ds, 0⟩, ?_, rfl, rfl, ?_⟩
    · have hzero : ['0'].all isDigit = true := by decide
      simpa using Literal.Written.point hsign (by simp) hzero hfraction .none
    · have hvalue : ofDigits (['0'] ++ (List.replicate (-point).toNat '0' ++ ds)) = ofDigits ds :=
        ofDigits_append_zeros ((-point).toNat + 1) ds
      have hexponent : point - ds.length = -((-point).toNat + ds.length : Nat) := by omega
      rw [Literal.magnitude, hvalue, hexponent, zpow_neg, zpow_natCast, div_eq_mul_inv,
        List.length_append, List.length_replicate]
  · rename_i hpoint
    split
    · rename_i hle
      have hwhole : (ds ++ List.replicate (point.toNat - ds.length) '0').all isDigit = true := by
        rw [List.all_append, hzeros, hds]
        rfl
      refine ⟨⟨negative, ds ++ List.replicate (point.toNat - ds.length) '0', [], 0⟩, ?_, rfl, rfl,
        ?_⟩
      · simpa using Literal.Written.whole hsign (by simp [hne]) hwhole .none
      · have hexponent : point - ds.length = (point.toNat - ds.length : Nat) := by omega
        rw [Literal.magnitude, List.append_nil, ofDigits_append_trailing, hexponent, zpow_natCast]
        simp
    · rename_i hlt
      have hparts := List.take_append_drop point.toNat ds
      refine ⟨⟨negative, ds.take point.toNat, ds.drop point.toNat, 0⟩, ?_, rfl, rfl, ?_⟩
      · rw [← hparts, List.all_append, Bool.and_eq_true] at hds
        rw [← hparts] at hne
        simpa using Literal.Written.point hsign hne hds.1 hds.2 .none
      · have hexponent : point - ds.length = -((ds.length - point.toNat : Nat) : Int) := by omega
        rw [Literal.magnitude, hparts, hexponent, zpow_neg, zpow_natCast, div_eq_mul_inv,
          List.length_drop]

theorem toList_withSign (negative : Bool) (s : String) :
    ∃ sign, IsSign sign negative ∧ (withSign negative s).toList = sign ++ s.toList := by
  cases negative with
  | false => exact ⟨[], .none, rfl⟩
  | true => exact ⟨['-'], .minus, String.toList_append⟩

/-- A number other than zero is written as digits whose number is rounded to it. -/
theorem exists_positional (hm : 0 < m) (hx : Exact.ofFloat x = .finite negative m e) :
    ∃ n point, text x = withSign negative (positional (Nat.toDigits 10 n) point) ∧
      Within m e (n * 10 ^ (point - (Nat.toDigits 10 n).length)) := by
  rw [text, hx]
  simp only
  split
  · rename_i hwhole
    rw [Bool.and_eq_true] at hwhole
    refine ⟨wholePart m e, (Nat.toDigits 10 (wholePart m e)).length, ?_, ?_⟩
    · have hpos := length_toDigits_pos (wholePart m e)
      rw [positional, if_neg (by omega), if_pos (le_refl _), Int.toNat_natCast, Nat.sub_self,
        List.replicate_zero, List.append_nil]
      rfl
    · rw [sub_self, zpow_zero, mul_one, wholePart_value hwhole.1]
      exact within_self m e
  · refine ⟨_, _, rfl, ?_⟩
    rw [add_sub_cancel_left]
    exact within_shortest hm (isDouble_of_finite hx).lt .away e

theorem isBlank_of_isLiteralChar (h : isLiteralChar c = true) : Text.isBlank c = false := by
  simp only [isLiteralChar, isSignMark, Bool.or_eq_true, decide_eq_true_eq] at h
  rcases h with (((hdigit | rfl | rfl) | rfl) | rfl) | rfl
  case inl.inl.inl.inl => exact isBlank_of_isDigit hdigit
  all_goals rfl

theorem trimmed_of_written (h : l.Written cs) : Text.trimmed cs = cs := by
  have hstops {ds : List Char} (hds : ∀ c ∈ ds, c ∈ cs) : Text.Stops Text.isBlank ds := by
    intro c hc
    exact isBlank_of_isLiteralChar
      (List.all_eq_true.mp h.all_isLiteralChar c (hds c (List.mem_of_mem_head? hc)))
  exact Text.trimmed_eq_self (hstops fun _ => id) (hstops fun _ => List.mem_reverse.mp)

theorem exact_ofText_text (hm : 0 < m) (hx : Exact.ofFloat x = .finite negative m e) :
    Exact.ofFloat (ofText (text x)) = .finite negative m e := by
  obtain ⟨n, point, htext, hwithin⟩ := exists_positional hm hx
  obtain ⟨sign, hsign, hchars⟩ :=
    toList_withSign negative (positional (Nat.toDigits 10 n) point)
  obtain ⟨l, hwritten, rfl, hexponent, hmagnitude⟩ :=
    exists_written_positional hsign Nat.toDigits_ne_nil (all_isDigit_toDigits n) point
  rw [ofDigits_toDigits] at hmagnitude
  rw [ofText, htext, hchars, trimmed_of_written hwritten, ofTrimmed_of_written hwritten]
  exact exact_toFloat hm (isDouble_of_finite hx) hexponent (hmagnitude ▸ hwithin)

theorem eq_of_infinite (hx : Exact.ofFloat x = .infinite negative)
    (hy : Exact.ofFloat y = .infinite negative) : x = y := by
  have hbits {z : Float} (hz : Exact.ofFloat z = .infinite negative) : z.toBits.toNat =
      (if negative then 9_223_372_036_854_775_808 else 0) + 9_218_868_437_227_405_312 := by
    have hlt : z.toBits.toNat < 18_446_744_073_709_551_616 := z.toBits.toNat_lt
    simp only [Exact.ofFloat] at hz
    split at hz
    · split at hz
      · cases hz
        simp only [decide_eq_true_eq]
        split <;> omega
      · cases hz
    · split at hz <;> cases hz
  exact eq_of_toBits ((hbits hx).trans (hbits hy).symm)

theorem eq_nan_of_exact (h : Exact.ofFloat x = .nan) : x = Float.nan := by
  rw [Exact.ofFloat_eq] at h
  have hnan : x.isNaN = true := by
    change x.toModel.unpack.isNaN = true
    cases hx : x.toModel.unpack with
    | notANumber => rfl
    | _ => rw [hx] at h; cases h
  simpa [Float.isNaN_eq_decide_eq_nan] using hnan

/-- The text of a number is read as the number. -/
theorem ofText_text (x : Float) : ofText (text x) = x := by
  cases hx : Exact.ofFloat x with
  | nan =>
    obtain rfl := eq_nan_of_exact hx
    decide
  | infinite negative =>
    cases negative with
    | false =>
      obtain rfl : x = infinity := eq_of_infinite hx (by decide)
      decide
    | true =>
      obtain rfl : x = -infinity := eq_of_infinite hx (by decide)
      decide
  | finite negative m e =>
    rcases Nat.eq_zero_or_pos m with rfl | hm
    · have hzero : (x == 0) = true := by
        have hbounds := bounds_of_finite hx
        obtain rfl : e = -1074 := by omega
        exact (beq_zero_iff x).mpr ⟨negative, hx⟩
      rcases eq_zero_or_of_beq_zero hzero with rfl | rfl <;> decide +kernel
    · exact eq_of_finite (exact_ofText_text hm hx) hx

end RecordLogic.Number
