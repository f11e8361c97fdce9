import Mathlib

namespace RecordLogic.Number

open Float.Model Float.Model.Format Float.Model.UnpackedFloat

variable {s : Sign} {u : UnpackedFloat} {m k : Nat} {e : Int}

/-- A double with a sign that is infinite or has all 53 bits of its mantissa, so that it is neither
zero nor so small that bits are missing. -/
inductive Full (s : Sign) : UnpackedFloat → Prop where
  | infinity : Full s (.infinity s)
  | finite {m : Nat} {e : Int} (hpos : 0 < m) (hlow : 2 ^ 52 ≤ m) (hhigh : m < 2 ^ 53)
      (he : -1074 ≤ e) : Full s (.finite s m e hpos)

theorem mantissa_repeat (em : ExtendedMantissa) (k : Nat) :
    (k.repeat ExtendedMantissa.shiftRightOne em).mantissa = em.mantissa / 2 ^ k := by
  induction k with
  | zero => simp [Nat.repeat]
  | succ k ih =>
    rw [Nat.repeat, ExtendedMantissa.shiftRightOne, ih, Nat.div_div_eq_div_mul, Nat.pow_succ]

theorem roundedMantissa_bounds (em : ExtendedMantissa) :
    em.mantissa ≤ em.roundedMantissa ∧ em.roundedMantissa ≤ em.mantissa + 1 := by
  obtain ⟨m, round, sticky⟩ := em
  cases round <;> cases sticky <;>
    simp [ExtendedMantissa.roundedMantissa, ExtendedMantissa.accuracy, Accuracy.roundToNearestEven]
  omega

theorem shiftToTargetExponent_eq (hm : 2 ^ 52 ≤ m) (he : -1074 ≤ e + (m.log2 - 52 : Nat)) :
    (shiftToTargetExponent binary64 m e .exact).1.mantissa = m / 2 ^ (m.log2 - 52) ∧
      (shiftToTargetExponent binary64 m e .exact).2 = e + (m.log2 - 52 : Nat) := by
  have hlog : 52 ≤ m.log2 := (Nat.le_log2 (by omega)).mpr hm
  have htarget : (binary64.targetExponent (totalExponent m e) - e).toNat = m.log2 - 52 := by
    simp only [targetExponent, totalExponent, mantissaBits, minExponent]
    omega
  simp only [shiftToTargetExponent, shiftToExponent, htarget]
  exact ⟨mantissa_repeat _ _, trivial⟩

theorem shifted_bounds (hm : 2 ^ 52 ≤ m) :
    2 ^ 52 ≤ m / 2 ^ (m.log2 - 52) ∧ m / 2 ^ (m.log2 - 52) < 2 ^ 53 := by
  have hne : m ≠ 0 := by omega
  have hlog : 52 ≤ m.log2 := (Nat.le_log2 hne).mpr hm
  have hpos : 0 < 2 ^ (m.log2 - 52) := Nat.two_pow_pos _
  constructor
  · have hlow := Nat.log2_self_le hne
    rw [Nat.le_div_iff_mul_le hpos, ← Nat.pow_add]
    rwa [Nat.add_sub_cancel' hlog]
  · have hhigh : m < 2 ^ (m.log2 + 1) := Nat.lt_log2_self
    have hbits : 53 + (m.log2 - 52) = m.log2 + 1 := by omega
    rw [Nat.div_lt_iff_lt_mul hpos, ← Nat.pow_add]
    rwa [hbits]

theorem full_roundWithAccuracy (s : Sign) (hm : 2 ^ 52 ≤ m)
    (he : -1074 ≤ e + (m.log2 - 52 : Nat)) : Full s (roundWithAccuracy binary64 s m e .exact) := by
  obtain ⟨hmantissa, hexponent⟩ := shiftToTargetExponent_eq hm he
  obtain ⟨hlow, hhigh⟩ := shifted_bounds hm
  have hrounded := roundedMantissa_bounds (shiftToTargetExponent binary64 m e .exact).1
  rw [hmantissa] at hrounded
  rw [roundWithAccuracy]
  generalize shiftToTargetExponent binary64 m e .exact = first at *
  obtain ⟨em, e₁⟩ := first
  simp only at hrounded hexponent ⊢
  generalize em.roundedMantissa = r at hrounded
  have hr : 2 ^ 52 ≤ r := by omega
  have he₁ : -1074 ≤ e₁ + (r.log2 - 52 : Nat) := by omega
  obtain ⟨hmantissa', hexponent'⟩ := shiftToTargetExponent_eq hr he₁
  obtain ⟨hlow', hhigh'⟩ := shifted_bounds hr
  have hne : (shiftToTargetExponent binary64 r e₁ .exact).1.mantissa ≠ 0 := by omega
  rw [dif_neg hne]
  apply Full.finite <;> omega

theorem full_round (s : Sign) (hm : 0 < m) : Full s (UnpackedFloat.round binary64 s m 0) := by
  have hne : m ≠ 0 := by omega
  have htarget : binary64.targetExponent (totalExponent m 0) = m.log2 - 52 := by
    simp only [targetExponent, totalExponent, mantissaBits, minExponent]
    omega
  rw [UnpackedFloat.round]
  simp only [decreaseExponent, htarget]
  by_cases hbig : 52 ≤ m.log2
  · have hshift : (0 - ((m.log2 : Int) - 52)).toNat = 0 := by omega
    rw [hshift]
    apply full_roundWithAccuracy
    · simpa using (Nat.le_log2 hne).mp hbig
    · omega
  · have hshift : (0 - ((m.log2 : Int) - 52)).toNat = 52 - m.log2 := by omega
    have hbits : m.log2 + (52 - m.log2) = 52 := by omega
    rw [hshift]
    apply full_roundWithAccuracy
    · calc 2 ^ 52
        _ = 2 ^ m.log2 * 2 ^ (52 - m.log2) := by rw [← Nat.pow_add, hbits]
        _ ≤ m * 2 ^ (52 - m.log2) := Nat.mul_le_mul_right _ (Nat.log2_self_le hne)
        _ = m <<< (52 - m.log2) := (Nat.shiftLeft_eq _ _).symm
    · omega

theorem le_log2_mul {a b : Nat} (hk : 2 ^ a ≤ k) (hm : 2 ^ b ≤ m) : a + b ≤ (k * m).log2 := by
  have hpow : 2 ^ (a + b) ≤ k * m := by
    rw [Nat.pow_add]
    exact Nat.mul_le_mul hk hm
  have hpos := Nat.two_pow_pos (a + b)
  exact (Nat.le_log2 (by omega)).mpr hpow

theorem Full.mul_one (h : Full s u) :
    Full s (UnpackedFloat.mul binary64 u (.finite .positive (2 ^ 52) (-52) (by decide))) := by
  have hsign : s * .positive = s := by cases s <;> rfl
  cases h with
  | infinity =>
    rw [UnpackedFloat.mul, hsign]
    exact .infinity
  | finite hpos hlow hhigh he =>
    rw [UnpackedFloat.mul, hsign]
    have hlog := le_log2_mul hlow (Nat.le_refl (2 ^ 52))
    apply full_roundWithAccuracy <;> omega

theorem ofBitVec_unpackSign (s : Sign) (exponent : BitVec 11) (mantissa : BitVec 52) :
    Sign.ofBitVec (unpackSign (packComponents binary64 s exponent mantissa)) = s := by
  simp only [unpackSign, packComponents, BitVec.extractLsb]
  rw [BitVec.extractLsb'_append_eq_of_le (by omega),
    BitVec.extractLsb'_append_eq_of_le (by omega)]
  cases s <;> rfl

theorem toNat_one_append (b : BitVec 52) : (1#1 ++ b).toNat = 2 ^ 52 + b.toNat := by
  rw [BitVec.toNat_append, ← Nat.shiftLeft_add_eq_or_of_lt b.isLt]
  rfl

/-- Neither the sign nor the mantissa nor the exponent of such a double is lost in its bits. -/
theorem unpack_pack_finite (hpos : 0 < m) (hlow : 2 ^ 52 ≤ m) (hhigh : m < 2 ^ 53)
    (he : -1074 ≤ e) (hmax : e ≤ 971) :
    UnpackedFloat.unpack binary64 (UnpackedFloat.pack binary64 (.finite s m e hpos)) =
      .finite s m e hpos := by
  have hlog : m.log2 = 52 := (Nat.log2_eq_iff (by omega)).mpr ⟨hlow, hhigh⟩
  have hbits : m.log2 + 1 = binary64.mantissaBits := by simp [hlog, mantissaBits]
  have hbias : (e + binary64.exponentBias + (52 : Nat)).toNat = (e + 1075).toNat := by
    simp only [exponentBias]
    omega
  have hexponent : (BitVec.ofNat 11 (e + 1075).toNat).toNat = (e + 1075).toNat := by
    rw [BitVec.toNat_ofNat, Nat.mod_eq_of_lt (by omega)]
  have hfinite : BitVec.ofNat 11 (e + 1075).toNat ≠ -1#11 := by
    intro heq
    rw [heq] at hexponent
    simp at hexponent
    omega
  have hnonzero : BitVec.ofNat 11 (e + 1075).toNat ≠ 0#11 := by
    intro heq
    rw [heq] at hexponent
    simp at hexponent
    omega
  have hmantissa : (1#1 ++ BitVec.ofNat 52 m).toNat = m := by
    rw [toNat_one_append, BitVec.toNat_ofNat]
    omega
  rw [UnpackedFloat.pack]
  simp only [hbias]
  rw [if_neg (by omega), if_pos hbits, UnpackedFloat.unpack]
  simp only [unpackExponent_packComponents, unpackMantissa_packComponents, ofBitVec_unpackSign]
  rw [if_neg hfinite, if_neg hnonzero, UnpackedFloat.finite.injEq]
  refine ⟨rfl, hmantissa, ?_⟩
  rw [hexponent]
  simp only [exponentBias]
  omega

theorem unpack_packedInfinity (s : Sign) :
    UnpackedFloat.unpack binary64 (packedInfinity binary64 s) = .infinity s := by
  cases s <;> rfl

/-- An exponent that is too large makes an infinity. -/
theorem unpack_pack_large (hpos : 0 < m) (hlarge : 971 < e) :
    UnpackedFloat.unpack binary64 (UnpackedFloat.pack binary64 (.finite s m e hpos)) =
      .infinity s := by
  have hbits : 2 ^ 11 ≤ (e + binary64.exponentBias + (52 : Nat)).toNat + 1 := by
    simp only [exponentBias]
    omega
  rw [UnpackedFloat.pack]
  simp only
  rw [if_pos hbits]
  exact unpack_packedInfinity s

theorem Full.unpack_pack (h : Full s u) :
    Full s (UnpackedFloat.unpack binary64 (UnpackedFloat.pack binary64 u)) := by
  cases h with
  | infinity =>
    rw [UnpackedFloat.pack, unpack_packedInfinity]
    exact .infinity
  | @finite m e hpos hlow hhigh he =>
    by_cases hmax : e ≤ 971
    · rw [unpack_pack_finite hpos hlow hhigh he hmax]
      exact .finite hpos hlow hhigh he
    · rw [unpack_pack_large hpos (by omega)]
      exact .infinity

theorem unpack_one : Float.exactlyRepresentablePowersOfTen[0].toModel.unpack =
    .finite .positive (2 ^ 52) (-52) (by decide) :=
  rfl

/-- A number that 53 bits hold is converted from a word and multiplied by one, a larger one is
rounded once. -/
theorem full_ofNat (hk : 0 < k) : Full .positive (Float.ofNat k).toModel.unpack := by
  change Full _ (Float.ofScientific k false 0).toModel.unpack
  rw [Float.ofScientific]
  split
  · rename_i hfast
    have hword : k.toUInt64.toNat = k := by
      rw [Nat.toUInt64_eq, UInt64.toNat_ofNat_of_lt']
      exact Nat.lt_trans hfast.1 (by decide)
    have hsign : compare (k : Int) 0 = .gt := by
      rw [Int.compare_eq_gt]
      omega
    have hround : Full .positive (UnpackedFloat.ofUInt64 binary64 k.toUInt64) := by
      rw [UnpackedFloat.ofUInt64, UnpackedFloat.ofNat, UnpackedFloat.ofInt, hword,
        UnpackedFloat.normalize, hsign]
      exact full_round .positive hk
    have hmul := hround.unpack_pack.mul_one
    rw [← unpack_one] at hmul
    exact hmul.unpack_pack
  · rename_i hslow
    have hshift : 2 ^ 53 ≤ k <<< binary64.mantissaBits := by
      rw [Nat.shiftLeft_eq]
      calc 2 ^ 53
        _ = 2 ^ 53 * 1 := by rfl
        _ ≤ k * 2 ^ binary64.mantissaBits := Nat.mul_le_mul (by omega) (Nat.two_pow_pos _)
    have hlog := le_log2_mul hshift (Nat.le_refl (2 ^ 0))
    rw [Nat.pow_zero] at hlog
    have hround : Full .positive (UnpackedFloat.ofScientific binary64 k 0) := by
      have hexp : ¬(0 : Int) < -((2 ^ binary64.exponentBits : Int) + k.log2) := by
        simp only
        omega
      rw [UnpackedFloat.ofScientific, dif_neg (by omega), if_neg (by decide), if_neg hexp,
        if_pos (by omega), UnpackedFloat.mul, Int.toNat_zero, Nat.pow_zero]
      apply full_roundWithAccuracy
      · omega
      · simp only [mantissaBits]
        omega
    exact hround.unpack_pack

theorem Full.neg (h : Full .positive u) : Full .negative u.neg := by
  cases h with
  | infinity => exact .infinity
  | finite hpos hlow hhigh he => exact .finite hpos hlow hhigh he

theorem Full.zero_le (h : Full .positive u) : UnpackedFloat.le (.zero .positive) u = true := by
  cases h <;> rfl

theorem Full.not_zero_le (h : Full .negative u) : UnpackedFloat.le (.zero .positive) u = false := by
  cases h <;> rfl

theorem unpack_ofNat_zero : (Float.ofNat 0).toModel.unpack = .zero .positive :=
  rfl

theorem float_le_iff (x y : Float) : x ≤ y ↔ x.toModel.unpack.le y.toModel.unpack = true := by
  change decide (x.toModel ≤ y.toModel) = true ↔ _
  rw [decide_eq_true_iff]
  rfl

/-- A whole number of any size keeps its sign when it is rounded to a double. -/
theorem zero_le_ofInt_iff (n : Int) : 0 ≤ Float.ofInt n ↔ 0 ≤ n := by
  change Float.ofNat 0 ≤ Float.ofInt n ↔ 0 ≤ n
  rw [float_le_iff, unpack_ofNat_zero]
  cases n with
  | ofNat k =>
    rw [Float.ofInt]
    rcases Nat.eq_zero_or_pos k with rfl | hk
    · rw [unpack_ofNat_zero]
      decide
    · simp [(full_ofNat hk).zero_le]
  | negSucc k =>
    have hneg : Full .negative (Float.ofInt (.negSucc k)).toModel.unpack :=
      (full_ofNat (Nat.succ_pos k)).neg.unpack_pack
    simp [hneg.not_zero_le]

end RecordLogic.Number
