import Mathlib
import RecordLogic.Number.Decimal
import RecordLogic.Proofs.Number.Search

namespace RecordLogic.Number

open Float.Model Float.Model.Format Float.Model.UnpackedFloat

variable {v : ℚ} {x : Float} {s : Sign} {l : Literal} {negative : Bool} {m n k : Nat} {e f : Int}

/-- What is left of a division says how the quotient goes on. -/
theorem describes_accuracyOfFraction (k : Nat) (hn : 0 < n) (u : ℚ) (hu : 0 < u) :
    Describes (k / n * u) u
      (ExtendedMantissa.ofMantissaAndAccuracy (k / n) (accuracyOfFraction (k % n) n)) := by
  have hnpos : (0 : ℚ) < n := by exact_mod_cast hn
  have hparts : (k : ℚ) = n * (k / n : Nat) + (k % n : Nat) := by
    exact_mod_cast (Nat.div_add_mod k n).symm
  have hquotient : (k : ℚ) / n = (k / n : Nat) + (k % n : Nat) / n := by
    rw [hparts]
    field_simp
  generalize k / n = c at hquotient ⊢
  have hlt := Nat.mod_lt k hn
  generalize k % n = r at hquotient hlt ⊢
  have hrpos : (0 : ℚ) ≤ r := by positivity
  rw [hquotient, accuracyOfFraction]
  split
  · rename_i hzero
    simp [ExtendedMantissa.ofMantissaAndAccuracy, Describes, withHalf, hzero]
  · rename_i hne
    have hpos : (0 : ℚ) < r / n := by
      have hcast : (0 : ℚ) < r := by exact_mod_cast Nat.pos_of_ne_zero hne
      positivity
    have hone : (r : ℚ) / n < 1 := by
      rw [div_lt_one hnpos]
      exact_mod_cast hlt
    rcases Nat.lt_trichotomy (2 * r) n with hside | hside | hside
    · have hhalf : (r : ℚ) / n < 1 / 2 := by
        rw [div_lt_div_iff₀ hnpos two_pos, one_mul, mul_comm]
        exact_mod_cast hside
      have hcompare : compare (2 * r) n = .lt := Nat.compare_eq_lt.mpr hside
      simp only [hcompare, ExtendedMantissa.ofMantissaAndAccuracy, Describes, withHalf, if_true,
        Bool.false_eq_true, if_false, add_zero]
      constructor
      · exact mul_lt_mul_of_pos_right (by linarith) hu
      · exact mul_lt_mul_of_pos_right (by linarith) hu
    · have hhalf : (r : ℚ) / n = 1 / 2 := by
        rw [div_eq_div_iff hnpos.ne' two_ne_zero, one_mul, mul_comm]
        exact_mod_cast hside
      have hcompare : compare (2 * r) n = .eq := Nat.compare_eq_eq.mpr hside
      simp only [hcompare, ExtendedMantissa.ofMantissaAndAccuracy, Describes, withHalf, if_true,
        Bool.false_eq_true, if_false, hhalf]
    · have hhalf : 1 / 2 < (r : ℚ) / n := by
        rw [div_lt_div_iff₀ two_pos hnpos, one_mul, mul_comm (r : ℚ)]
        exact_mod_cast hside
      have hcompare : compare (2 * r) n = .gt := Nat.compare_eq_gt.mpr hside
      simp only [hcompare, ExtendedMantissa.ofMantissaAndAccuracy, Describes, withHalf, if_true]
      constructor
      · exact mul_lt_mul_of_pos_right (by linarith) hu
      · exact mul_lt_mul_of_pos_right (by linarith) hu

/-- The quotient of two mantissas, with as many bits as rounding needs. -/
theorem describes_divCore (hm : 0 < m) (hn : 0 < n) (e f : Int) :
    let q := divCore binary64 m e n f
    Describes (m * 2 ^ e / (n * 2 ^ f)) (2 ^ q.2.1)
        (ExtendedMantissa.ofMantissaAndAccuracy q.1 q.2.2) ∧
      (2 ^ 52 ≤ q.1 ∨ q.2.1 ≤ -1074) := by
  simp only [divCore]
  obtain ⟨g, hg⟩ : ∃ g, g = min (e - f)
      (binary64.targetExponent (totalExponent m e - totalExponent n f)) := ⟨_, rfl⟩
  rw [← hg]
  constructor
  · have hvalue : (m : ℚ) * 2 ^ e / (n * 2 ^ f) = (m <<< (e - f - g).toNat : Nat) / n * 2 ^ g := by
      have hshift : (2 : ℚ) ^ (e - f - g).toNat * 2 ^ g * 2 ^ f = 2 ^ e := by
        rw [← zpow_natCast, ← two_zpow_add, ← two_zpow_add]
        congr 1
        omega
      have hnpos : (n : ℚ) ≠ 0 := by exact_mod_cast hn.ne'
      rw [Nat.shiftLeft_eq, ← hshift]
      push_cast
      field_simp
    rw [hvalue]
    exact describes_accuracyOfFraction _ hn _ (by positivity)
  · simp only [targetExponent, totalExponent, mantissaBits, minExponent] at hg
    rcases le_or_gt g (-1074) with hmin | hmin
    · exact Or.inr hmin
    · left
      have hbits : 53 + n.log2 ≤ m.log2 + (e - f - g).toNat := by omega
      rw [Nat.le_div_iff_mul_le hn, Nat.shiftLeft_eq]
      calc 2 ^ 52 * n
        _ ≤ 2 ^ 52 * 2 ^ (n.log2 + 1) := Nat.mul_le_mul_left _ Nat.lt_log2_self.le
        _ = 2 ^ (53 + n.log2) := by ring
        _ ≤ 2 ^ (m.log2 + (e - f - g).toNat) := Nat.pow_le_pow_right two_pos hbits
        _ = 2 ^ m.log2 * 2 ^ (e - f - g).toNat := by ring
        _ ≤ m * 2 ^ (e - f - g).toNat := Nat.mul_le_mul_right _ (Nat.log2_self_le hm.ne')

theorem roundsTo_div (hm : 0 < m) (hn : 0 < n)
    (hx : x.toModel.unpack = UnpackedFloat.unpack binary64 (UnpackedFloat.pack binary64
      (UnpackedFloat.div binary64 (.finite .positive m e hm) (.finite .positive n f hn)))) :
    RoundsTo (m * 2 ^ e / (n * 2 ^ f)) x := by
  obtain ⟨hdescribes, hsize⟩ := describes_divCore hm hn e f
  exact roundsTo_of_unpack hx hdescribes hsize

theorem ofParts_of_pos (s : Sign) (hm : 0 < m) (e : Int) : ofParts s m e = .finite s m e hm :=
  dif_neg hm.ne'

theorem unpack_of_exact (h : Exact.ofFloat x = .finite negative m e) :
    ∃ s, isNegative s = negative ∧ x.toModel.unpack = ofParts s m e := by
  rw [Exact.ofFloat_eq] at h
  cases hx : x.toModel.unpack with
  | notANumber => rw [hx] at h; cases h
  | infinity s => rw [hx] at h; cases h
  | zero s =>
    rw [hx] at h
    cases h
    exact ⟨s, rfl, rfl⟩
  | finite s m' e' hm =>
    rw [hx] at h
    cases h
    exact ⟨s, rfl, (ofParts_of_pos s hm _).symm⟩

theorem wholePart_value (h : isWhole m e = true) : (wholePart m e : ℚ) = m * 2 ^ e := by
  have hscaled : (m : ℚ) * 2 ^ e.toNat = wholePart m e * 2 ^ (-e).toNat := by
    exact_mod_cast wholePart_scaled h
  rw [pow_toNat 2 two_ne_zero e, ← mul_assoc] at hscaled
  exact (mul_right_cancel₀ (by positivity) hscaled).symm

theorem value_of_whole? {n : Int} (h : whole? x = some n) : value x = n := by
  obtain ⟨negative, m, e, hx, hw, hn⟩ := exists_of_whole? h
  rw [value_of_finite hx, ← wholePart_value hw, hn]
  cases negative <;> simp

/-- The powers of ten in the table are exact. -/
theorem exists_unpack_powerOfTen (hk : k < Float.exactlyRepresentablePowersOfTen.size) :
    ∃ m e hm, Float.exactlyRepresentablePowersOfTen[k].toModel.unpack = .finite .positive m e hm ∧
      (m : ℚ) * 2 ^ e = 10 ^ k := by
  have hall : ∀ i : Fin 23,
      whole? Float.exactlyRepresentablePowersOfTen[i] = some (10 ^ i.val) := by decide
  have hwhole := hall ⟨k, hk⟩
  have hvalue := value_of_whole? hwhole
  obtain ⟨negative, m, e, hx, -, hsign⟩ := exists_of_whole? hwhole
  have hpow : (0 : Int) < 10 ^ k := by positivity
  obtain rfl : negative = false := by
    cases negative with
    | false => rfl
    | true =>
      simp only [if_true] at hsign
      omega
  rw [value_of_finite hx, if_neg Bool.false_ne_true, one_mul] at hvalue
  push_cast at hvalue
  have hm : 0 < m := by
    by_contra hzero
    obtain rfl : m = 0 := by omega
    have hten : (0 : ℚ) < 10 ^ k := by positivity
    rw [← hvalue] at hten
    simp at hten
  obtain ⟨s, hs, hunpack⟩ := unpack_of_exact hx
  rw [ofParts_of_pos s hm] at hunpack
  cases s with
  | positive => exact ⟨m, e, hm, hunpack, hvalue⟩
  | negative => cases hs

/-- Up to the decimals that are taken for zero at once, the numerator is divided by the power of ten
and rounded once. -/
theorem unpack_ofScientific (hn : 0 < n) (hk : 0 < k) (hslow : ¬(n < 2 ^ 53 ∧ k ≤ 22))
    (hlarge : k ≤ 2048 + n.log2) : (Float.ofScientific n true k).toModel.unpack =
      UnpackedFloat.unpack binary64 (UnpackedFloat.pack binary64 (UnpackedFloat.div binary64
        (.finite .positive n 0 hn) (.finite .positive (10 ^ k) 0 (Nat.pow_pos (by decide))))) := by
  have hneg : Int.negOfNat k = -(k : Int) := Int.negOfNat_eq
  have hrange : ¬Int.negOfNat k > 2 ^ binary64.exponentBits := by
    rw [hneg]
    simp only
    omega
  have hclamp : ¬Int.negOfNat k < -((2 ^ binary64.exponentBits : Int) + n.log2) := by
    rw [hneg]
    simp only
    omega
  rw [Float.ofScientific, dif_neg hslow]
  change UnpackedFloat.unpack binary64 (UnpackedFloat.pack binary64
    (UnpackedFloat.ofScientific binary64 n (Int.negOfNat k))) = _
  rw [UnpackedFloat.ofScientific, dif_neg hn.ne', if_neg hrange, if_neg hclamp, if_neg (by omega)]
  have hexponent : (-Int.negOfNat k).toNat = k := by omega
  simp only [hexponent]

theorem roundsTo_ofScientific (hn : 0 < n) (hk : 0 < k) (hlarge : k ≤ 2048 + n.log2) :
    RoundsTo (n / 10 ^ k) (Float.ofScientific n true k) := by
  by_cases hfast : n < 2 ^ 53 ∧ k ≤ 22
  · have hsize : k < Float.exactlyRepresentablePowersOfTen.size := Nat.lt_succ_of_le hfast.2
    obtain ⟨m, e, hm, hpower, hvalue⟩ := exists_unpack_powerOfTen hsize
    rw [← fullMantissa_value hn hfast.1, ← hvalue, Float.ofScientific, dif_pos hfast]
    apply roundsTo_div (fullMantissa_pos hn) hm
    rw [← hpower, ← unpack_toFloat hn hfast.1]
    rfl
  · have hrounds := roundsTo_div hn _ (unpack_ofScientific hn hk hfast hlarge)
    simpa using hrounds

theorem neg_ofParts (s : Sign) (m : Nat) (e : Int) : (ofParts s m e).neg = ofParts (-s) m e := by
  rw [ofParts, ofParts]
  split <;> rfl

theorem exact_neg (h : Exact.ofFloat x = .finite negative m e) :
    Exact.ofFloat (-x) = .finite (!negative) m e := by
  obtain ⟨s, rfl, hx⟩ := unpack_of_exact h
  have hdouble := isDouble_of_finite h
  have hneg : (-x).toModel.unpack = UnpackedFloat.unpack binary64
      (UnpackedFloat.pack binary64 x.toModel.unpack.neg) := rfl
  rw [Exact.ofFloat_eq, hneg, hx, neg_ofParts, exact_pack _ hdouble]
  cases s <;> rfl

/-- No double is smaller than half the smallest one. -/
theorem Within.small_le (h : Within m e v) (hm : 0 < m) (hd : IsDouble m e) :
    2 ^ (-1075 : Int) ≤ v := by
  have hone : (1 : ℚ) ≤ m := by exact_mod_cast hm
  have hbelow := below_le m e
  calc (2 : ℚ) ^ (-1075 : Int)
    _ = 2 ^ (-1 + -1074 : Int) := rfl
    _ = 1 / 2 * 2 ^ (-1074 : Int) := by
      rw [two_zpow_add]
      norm_num
    _ ≤ 1 / 2 * 2 ^ e :=
      mul_le_mul_of_nonneg_left (zpow_le_zpow_right₀ one_le_two hd.min) (by norm_num)
    _ ≤ (m - below m e) * 2 ^ e := mul_le_mul_of_nonneg_right (by linarith) (by positivity)
    _ ≤ v := h.low

theorem Within.lt_large (h : Within m e v) (hd : IsDouble m e) : v < 2 ^ (1024 : Int) := by
  have hlt : (m : ℚ) + 1 ≤ 2 ^ 53 := by exact_mod_cast hd.lt
  calc v
    _ ≤ (m + 1 / 2) * 2 ^ e := h.high
    _ < 2 ^ 53 * 2 ^ e := mul_lt_mul_of_pos_right (by linarith) (by positivity)
    _ ≤ 2 ^ 53 * 2 ^ (971 : Int) :=
      mul_le_mul_of_nonneg_left (zpow_le_zpow_right₀ one_le_two hd.max) (by positivity)
    _ = 2 ^ (53 + 971 : Int) := by
      rw [two_zpow_add]
      norm_num
    _ = 2 ^ (1024 : Int) := rfl

theorem two_zpow_le_ten_zpow : (2 : ℚ) ^ (1024 : Int) ≤ 10 ^ (310 : Int) :=
  calc (2 : ℚ) ^ (1024 : Int)
    _ ≤ 2 ^ ((205 * 5 : Nat) : Int) := zpow_le_zpow_right₀ one_le_two (by decide)
    _ = (2 ^ 205) ^ 5 := by rw [zpow_natCast, pow_mul]
    _ ≤ (10 ^ 62) ^ 5 := pow_le_pow_left₀ (by positivity) (by norm_num) 5
    _ = 10 ^ ((62 * 5 : Nat) : Int) := by rw [zpow_natCast, pow_mul]
    _ = 10 ^ (310 : Int) := rfl

theorem ten_zpow_le_two_zpow : (10 : ℚ) ^ (-331 : Int) ≤ 2 ^ (-1075 : Int) := by
  have hle : (2 : ℚ) ^ (1075 : Int) ≤ 10 ^ (331 : Int) :=
    calc (2 : ℚ) ^ (1075 : Int)
      _ ≤ 2 ^ ((33 * 33 : Nat) : Int) := zpow_le_zpow_right₀ one_le_two (by decide)
      _ = (2 ^ 33) ^ 33 := by rw [zpow_natCast, pow_mul]
      _ ≤ (10 ^ 10) ^ 33 := pow_le_pow_left₀ (by positivity) (by norm_num) 33
      _ = 10 ^ ((10 * 33 : Nat) : Int) := by rw [zpow_natCast, pow_mul]
      _ ≤ 10 ^ (331 : Int) := zpow_le_zpow_right₀ (by norm_num) (by decide)
  rw [zpow_neg, zpow_neg]
  exact inv_anti₀ (by positivity) hle

/-- The digits of a number say between which powers of ten it lies. -/
theorem decimal_lt (n k : Nat) :
    (n : ℚ) / 10 ^ k < 10 ^ (((Nat.toDigits 10 n).length : Int) - k) := by
  have hdigits : (n : ℚ) < 10 ^ (Nat.toDigits 10 n).length := by
    exact_mod_cast lt_pow_length_toDigits n
  rw [zpow_sub₀ (by norm_num), zpow_natCast, zpow_natCast]
  exact div_lt_div_of_pos_right hdigits (by positivity)

theorem le_decimal (hn : 0 < n) (k : Nat) :
    (10 : ℚ) ^ (((Nat.toDigits 10 n).length : Int) - 1 - k) ≤ n / 10 ^ k := by
  have hpos := length_toDigits_pos n
  have hexponent : ((Nat.toDigits 10 n).length : Int) - 1 =
      ((Nat.toDigits 10 n).length - 1 : Nat) := by omega
  have hdigits : (10 : ℚ) ^ ((Nat.toDigits 10 n).length - 1) ≤ n := by
    exact_mod_cast pow_length_toDigits_le hn
  rw [hexponent, zpow_sub₀ (by norm_num), zpow_natCast, zpow_natCast]
  exact div_le_div_of_nonneg_right hdigits (by positivity)

/-- The digits of a decimal fraction that is rounded to a double begin neither too far before its
point nor too far behind it. -/
theorem Within.point_bounds (h : Within m e (n / 10 ^ k)) (hm : 0 < m) (hd : IsDouble m e)
    (hn : 0 < n) : -330 ≤ ((Nat.toDigits 10 n).length : Int) - k ∧
      ((Nat.toDigits 10 n).length : Int) - k ≤ 310 := by
  constructor
  · by_contra hpoint
    have hsmall : (10 : ℚ) ^ (((Nat.toDigits 10 n).length : Int) - k) ≤ 10 ^ (-331 : Int) :=
      zpow_le_zpow_right₀ (by norm_num) (by omega)
    have hlt := (decimal_lt n k).trans_le (hsmall.trans ten_zpow_le_two_zpow)
    exact absurd (h.small_le hm hd) (not_le.mpr hlt)
  · by_contra hpoint
    have hlarge : (10 : ℚ) ^ (310 : Int) ≤ 10 ^ (((Nat.toDigits 10 n).length : Int) - 1 - k) :=
      zpow_le_zpow_right₀ (by norm_num) (by omega)
    have hle := two_zpow_le_ten_zpow.trans (hlarge.trans (le_decimal hn k))
    exact absurd (h.lt_large hd) (not_lt.mpr hle)

/-- The number that a literal without an exponent writes behind its sign. -/
def Literal.magnitude (l : Literal) : ℚ := ofDigits (l.whole ++ l.fraction) / 10 ^ l.fraction.length

/-- A literal without an exponent whose number is rounded to a double is read as the double. -/
theorem exact_toFloat (hm : 0 < m) (hd : IsDouble m e) (hl : l.exponent = 0)
    (hw : Within m e l.magnitude) : Exact.ofFloat l.toFloat = .finite l.negative m e := by
  rw [Literal.toFloat, hl]
  rw [Literal.magnitude] at hw
  generalize ofDigits (l.whole ++ l.fraction) = n at hw ⊢
  generalize l.fraction.length = k at hw ⊢
  have hn : 0 < n := by
    by_contra hzero
    obtain rfl : n = 0 := by omega
    have hsmall := hw.small_le hm hd
    have hpos : (0 : ℚ) < 2 ^ (-1075 : Int) := by positivity
    simp only [Nat.cast_zero, zero_div] at hsmall
    exact absurd hpos (not_lt.mpr hsmall)
  obtain ⟨hlow, hhigh⟩ := hw.point_bounds hm hd hn
  have hlog := length_toDigits_le_log2 hn
  have hrounds : RoundsTo (n / 10 ^ k)
      (Float.ofScientific n ((0 : Int) - k < 0) ((0 : Int) - k).natAbs) := by
    rcases Nat.eq_zero_or_pos k with rfl | hk
    · rw [pow_zero, div_one]
      exact roundsTo_ofNat n
    · have hnegative : decide ((0 : Int) - k < 0) = true := decide_eq_true (by omega)
      have habs : ((0 : Int) - k).natAbs = k := by omega
      rw [hnegative, habs]
      exact roundsTo_ofScientific hn hk (by omega)
  have hexact := hrounds.eq_finite hd hw
  have hzero : ¬(n = 0 || ((Nat.toDigits 10 n).length : Int) + (0 - k) < -330) = true := by
    simp only [Bool.or_eq_true, decide_eq_true_eq]
    omega
  have hlarge : ¬310 < ((Nat.toDigits 10 n).length : Int) + (0 - k) := by omega
  simp only [if_neg hzero, if_neg hlarge]
  cases l.negative with
  | false => exact hexact
  | true => exact exact_neg hexact

end RecordLogic.Number
