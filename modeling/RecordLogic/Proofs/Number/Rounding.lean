import Mathlib
import RecordLogic.Proofs.Number.Whole

namespace RecordLogic.Number

open Float.Model Float.Model.Format Float.Model.UnpackedFloat

variable {v u : ℚ} {em : ExtendedMantissa} {s : Sign} {a : Accuracy} {m n r : Nat} {e t : Int}

/-- A mantissa with the bit below it. -/
def withHalf (em : ExtendedMantissa) : ℚ :=
  em.mantissa + if em.roundBit then 1 / 2 else 0

/-- In units of `u`, the number is the mantissa with its half, or lies strictly between that and the
next half when bits are missing. -/
def Describes (v u : ℚ) (em : ExtendedMantissa) : Prop :=
  if em.stickyBit then withHalf em * u < v ∧ v < (withHalf em + 1 / 2) * u else v = withHalf em * u

theorem withHalf_shiftRightOne (em : ExtendedMantissa) :
    withHalf em.shiftRightOne * 2 = em.mantissa := by
  obtain ⟨m, round, sticky⟩ := em
  have hparts : (m : ℚ) = 2 * (m / 2 : Nat) + (m % 2 : Nat) := by
    exact_mod_cast (Nat.div_add_mod m 2).symm
  rcases Nat.mod_two_eq_zero_or_one m with hm | hm
  · simp only [withHalf, ExtendedMantissa.shiftRightOne, hm, hparts]
    norm_num
    ring
  · simp only [withHalf, ExtendedMantissa.shiftRightOne, hm, hparts]
    norm_num
    ring

theorem Describes.shiftRightOne (hu : 0 < u) (h : Describes v u em) :
    Describes v (2 * u) em.shiftRightOne := by
  have hlow : withHalf em.shiftRightOne * (2 * u) = em.mantissa * u := by
    rw [← mul_assoc, withHalf_shiftRightOne]
  have hhigh : (withHalf em.shiftRightOne + 1 / 2) * (2 * u) = (em.mantissa + 1) * u := by
    rw [add_mul, hlow]
    ring
  rw [Describes, hlow, hhigh]
  obtain ⟨m, round, sticky⟩ := em
  cases round <;> cases sticky <;>
    simp only [Describes, withHalf, ExtendedMantissa.shiftRightOne, Bool.or_self, Bool.or_true,
      Bool.or_false, Bool.false_eq_true, if_true, if_false, add_zero] at h ⊢
  · exact h
  · constructor <;> linarith
  · constructor <;> linarith
  · constructor <;> linarith

theorem Describes.shiftRight (hu : 0 < u) (h : Describes v u em) (k : Nat) :
    Describes v (2 ^ k * u) (em >>> k) := by
  induction k with
  | zero =>
    rw [pow_zero, one_mul]
    exact h
  | succ k ih =>
    have hstep := ih.shiftRightOne (by positivity)
    rwa [← mul_assoc, ← pow_succ'] at hstep

theorem Describes.bounds (hu : 0 < u) (h : Describes v u em) :
    em.mantissa * u ≤ v ∧ v < (em.mantissa + 1) * u := by
  obtain ⟨m, round, sticky⟩ := em
  cases round <;> cases sticky <;>
    simp only [Describes, withHalf, Bool.false_eq_true, if_true, if_false, add_zero] at h
  · constructor <;> linarith
  · constructor <;> linarith
  · constructor <;> linarith
  · constructor <;> linarith

/-- The mantissa is rounded to the nearer side, from the middle to the even one. -/
theorem Describes.rounded (hu : 0 < u) (h : Describes v u em) :
    |em.roundedMantissa * u - v| ≤ u / 2 ∧
      (|em.roundedMantissa * u - v| = u / 2 → em.roundedMantissa % 2 = 0) := by
  obtain ⟨m, round, sticky⟩ := em
  cases round <;> cases sticky <;>
    simp only [Describes, withHalf, Bool.false_eq_true, if_true, if_false, add_zero] at h <;>
    simp only [ExtendedMantissa.roundedMantissa, ExtendedMantissa.accuracy,
      Accuracy.roundToNearestEven]
  · rw [h, sub_self, abs_zero]
    exact ⟨by linarith, fun hu' => by linarith⟩
  · have habs : |(m : ℚ) * u - v| < u / 2 := by
      rw [abs_lt]
      constructor <;> linarith
    exact ⟨habs.le, fun heq => absurd heq habs.ne⟩
  · refine ⟨?_, fun _ => by omega⟩
    rw [abs_le]
    rcases Nat.mod_two_eq_zero_or_one m with hm | hm
    · rw [hm, add_zero]
      constructor <;> linarith
    · rw [hm]
      push_cast
      constructor <;> linarith
  · have habs : |((m + 1 : Nat) : ℚ) * u - v| < u / 2 := by
      push_cast
      rw [abs_lt]
      constructor <;> linarith
    exact ⟨habs.le, fun heq => absurd heq habs.ne⟩

theorem mantissa_ofMantissaAndAccuracy (m : Nat) (a : Accuracy) :
    (ExtendedMantissa.ofMantissaAndAccuracy m a).mantissa = m := by
  rcases a with _ | (_ | _ | _) <;> rfl

theorem describes_exact (m : Nat) (u : ℚ) :
    Describes (m * u) u (ExtendedMantissa.ofMantissaAndAccuracy m .exact) := by
  simp [Describes, withHalf, ExtendedMantissa.ofMantissaAndAccuracy]

/-- The mantissas and exponents of finite doubles; zero has the smallest exponent. -/
structure IsDouble (m : Nat) (e : Int) : Prop where
  lt : m < 2 ^ 53
  min : -1074 ≤ e
  max : e ≤ 971
  full : 2 ^ 52 ≤ m ∨ e = -1074

/-- `r · 2 ^ t` is the number rounded to whole units `2 ^ t`, from the middle to the even side. The
number has 53 bits in these units, or fewer in the smallest ones. -/
structure Rounded (v : ℚ) (r : Nat) (t : Int) : Prop where
  min : -1074 ≤ t
  low : 2 ^ 52 * (2 : ℚ) ^ t ≤ v ∨ t = -1074
  high : v < 2 ^ 53 * (2 : ℚ) ^ t
  near : |r * (2 : ℚ) ^ t - v| ≤ 2 ^ t / 2
  even : |r * (2 : ℚ) ^ t - v| = 2 ^ t / 2 → r % 2 = 0

/-- The unit in which a number of so many bits is rounded. -/
def unitExponent (m : Nat) (e : Int) : Int := max (m.log2 + e - 52) (-1074)

theorem shiftToTargetExponent_unit (hm : 2 ^ 52 ≤ m ∨ e ≤ -1074) :
    shiftToTargetExponent binary64 m e a =
      (ExtendedMantissa.ofMantissaAndAccuracy m a >>> (unitExponent m e - e).toNat,
        unitExponent m e) := by
  have hlog : 2 ^ 52 ≤ m → 52 ≤ m.log2 := fun h => (Nat.le_log2 (by omega)).mpr h
  have htarget : binary64.targetExponent (totalExponent m e) = unitExponent m e := by
    simp only [targetExponent, totalExponent, mantissaBits, minExponent, unitExponent]
    omega
  have hle : e ≤ unitExponent m e := by
    rw [unitExponent]
    omega
  simp only [shiftToTargetExponent, shiftToExponent, htarget, Prod.mk.injEq, true_and]
  omega

theorem two_zpow_add (e f : Int) : (2 : ℚ) ^ (e + f) = 2 ^ e * 2 ^ f :=
  zpow_add₀ two_ne_zero e f

theorem rounded_shiftToTargetExponent
    (h : Describes v (2 ^ e) (ExtendedMantissa.ofMantissaAndAccuracy m a))
    (hm : 2 ^ 52 ≤ m ∨ e ≤ -1074) :
    Rounded v (shiftToTargetExponent binary64 m e a).1.roundedMantissa (unitExponent m e) := by
  have hle : e ≤ unitExponent m e := by
    have hlog : 2 ^ 52 ≤ m → 52 ≤ m.log2 := fun h => (Nat.le_log2 (by omega)).mpr h
    rw [unitExponent]
    omega
  have hunit : (2 : ℚ) ^ (unitExponent m e - e).toNat * 2 ^ e = 2 ^ unitExponent m e := by
    rw [← zpow_natCast, ← two_zpow_add, Int.toNat_of_nonneg (by omega), sub_add_cancel]
  have hbounds := h.bounds (by positivity)
  rw [mantissa_ofMantissaAndAccuracy] at hbounds
  have hshifted := h.shiftRight (by positivity) (unitExponent m e - e).toNat
  rw [hunit] at hshifted
  obtain ⟨hnear, heven⟩ := hshifted.rounded (by positivity)
  rw [shiftToTargetExponent_unit hm]
  refine ⟨le_max_right _ _, ?_, ?_, hnear, heven⟩
  · rcases le_or_gt (m.log2 + e - 52) (-1074) with hmin | hmin
    · exact Or.inr (max_eq_right hmin)
    · left
      have hne : m ≠ 0 := by
        rintro rfl
        simp at hmin hm
        omega
      have hlow : ((2 ^ m.log2 : Nat) : ℚ) ≤ m := by exact_mod_cast Nat.log2_self_le hne
      have hpow : (2 : ℚ) ^ 52 * 2 ^ unitExponent m e = (2 ^ m.log2 : Nat) * 2 ^ e := by
        rw [unitExponent, max_eq_left hmin.le, Nat.cast_pow, Nat.cast_ofNat, ← zpow_natCast,
          ← zpow_natCast, ← two_zpow_add, ← two_zpow_add]
        congr 1
        omega
      rw [hpow]
      exact (mul_le_mul_of_nonneg_right hlow (by positivity)).trans hbounds.1
  · have hhigh : ((m + 1 : Nat) : ℚ) ≤ (2 ^ (m.log2 + 1) : Nat) := by
      exact_mod_cast Nat.lt_log2_self
    have hpow : ((2 ^ (m.log2 + 1) : Nat) : ℚ) * 2 ^ e ≤ 2 ^ 53 * 2 ^ unitExponent m e := by
      rw [Nat.cast_pow, Nat.cast_ofNat, ← zpow_natCast, ← zpow_natCast, ← two_zpow_add,
        ← two_zpow_add]
      apply zpow_le_zpow_right₀ one_le_two
      rw [unitExponent]
      omega
    calc v
      _ < (m + 1) * 2 ^ e := hbounds.2
      _ = (m + 1 : Nat) * 2 ^ e := by rw [Nat.cast_add_one]
      _ ≤ (2 ^ (m.log2 + 1) : Nat) * 2 ^ e := mul_le_mul_of_nonneg_right hhigh (by positivity)
      _ ≤ 2 ^ 53 * 2 ^ unitExponent m e := hpow

/-- A carry out of the highest bit gives the next power of two. -/
def carry (r : Nat) (t : Int) : Nat × Int :=
  if r = 2 ^ 53 then (2 ^ 52, t + 1) else (r, t)

theorem carry_value (r : Nat) (t : Int) :
    ((carry r t).1 : ℚ) * 2 ^ (carry r t).2 = r * 2 ^ t := by
  rw [carry]
  split
  · rename_i hr
    subst hr
    rw [two_zpow_add]
    push_cast
    ring
  · rfl

theorem carry_even (t : Int) (h : r % 2 = 0) : (carry r t).1 % 2 = 0 := by
  rw [carry]
  split
  · norm_num
  · exact h

theorem Rounded.le (h : Rounded v r t) : r ≤ 2 ^ 53 := by
  have hunit : (0 : ℚ) < 2 ^ t := by positivity
  have hnear := (abs_le.mp h.near).2
  have hhigh := h.high
  have hlt : (r : ℚ) * 2 ^ t < (2 ^ 53 + 1 : Nat) * 2 ^ t := by
    push_cast
    linarith
  have hnat := Nat.cast_lt.mp (lt_of_mul_lt_mul_right hlt hunit.le)
  omega

theorem Rounded.full (h : Rounded v r t) : 2 ^ 52 ≤ r ∨ t = -1074 := by
  refine h.low.imp_left fun hlow => ?_
  have hunit : (0 : ℚ) < 2 ^ t := by positivity
  have hnear := (abs_le.mp h.near).1
  have hlt : ((2 ^ 52 : Nat) : ℚ) * 2 ^ t < (r + 1 : Nat) * 2 ^ t := by
    push_cast
    linarith
  have hnat := Nat.cast_lt.mp (lt_of_mul_lt_mul_right hlt hunit.le)
  omega

/-- What is above the largest double by half a unit or more is infinite. -/
theorem Rounded.isDouble (h : Rounded v r t) (hmax : v < (2 ^ 53 - 1 / 2) * 2 ^ (971 : Int)) :
    IsDouble (carry r t).1 (carry r t).2 := by
  have hle := h.le
  have ht : t ≤ 971 := by
    by_contra hlarge
    have hlow := h.low.resolve_right (by omega)
    have hpow : 2 * (2 : ℚ) ^ (971 : Int) ≤ 2 ^ t := by
      rw [← zpow_one_add₀ two_ne_zero]
      exact zpow_le_zpow_right₀ one_le_two (by omega)
    have hunit : (0 : ℚ) < 2 ^ (971 : Int) := by positivity
    generalize (2 : ℚ) ^ (971 : Int) = unit at hmax hpow hunit
    linarith
  rw [carry]
  split
  · rename_i hr
    have hlt : t ≠ 971 := by
      rintro rfl
      have hnear := (abs_le.mp h.near).2
      rw [hr] at hnear
      generalize (2 : ℚ) ^ (971 : Int) = unit at hmax hnear
      push_cast at hnear
      linarith
    have hmin := h.min
    exact ⟨by norm_num, by simp only; omega, by simp only; omega, Or.inl (le_refl _)⟩
  · exact ⟨by simp only; omega, h.min, ht, h.full⟩

/-- A finite double, or zero if nothing is left of the mantissa. -/
def ofParts (s : Sign) (m : Nat) (e : Int) : UnpackedFloat :=
  if h : m = 0 then .zero s else .finite s m e (Nat.pos_of_ne_zero h)

theorem shiftToTargetExponent_carry (hle : r ≤ 2 ^ 53) (hmin : -1074 ≤ t) :
    (shiftToTargetExponent binary64 r t .exact).1.mantissa = (carry r t).1 ∧
      (shiftToTargetExponent binary64 r t .exact).2 = (carry r t).2 := by
  rw [carry]
  split
  · rename_i hr
    have hshift := shiftToTargetExponent_of_full (m := 2 ^ 52) (j := 1) (e := t) (by decide)
      (by decide) (by omega)
    have hpow : 2 ^ 52 * 2 ^ 1 = 2 ^ 53 := by decide
    rw [hr, ← hpow, hshift]
    exact ⟨rfl, rfl⟩
  · have hlog : r.log2 < 53 := by
      rcases Nat.eq_zero_or_pos r with rfl | hpos
      · decide
      · exact log2_lt_of_lt hpos (by omega)
    have hnone : (binary64.targetExponent (totalExponent r t) - t).toNat = 0 := by
      simp only [targetExponent, totalExponent, mantissaBits, minExponent]
      omega
    simp only [shiftToTargetExponent, shiftToExponent, hnone]
    exact ⟨rfl, Int.add_zero t⟩

/-- The number that the mantissa and its missing bits describe is rounded once. -/
theorem exists_rounded (s : Sign)
    (h : Describes v (2 ^ e) (ExtendedMantissa.ofMantissaAndAccuracy m a))
    (hm : 2 ^ 52 ≤ m ∨ e ≤ -1074) :
    ∃ r t, Rounded v r t ∧
      roundWithAccuracy binary64 s m e a = ofParts s (carry r t).1 (carry r t).2 := by
  have hround := rounded_shiftToTargetExponent h hm
  have hunit := congrArg Prod.snd (shiftToTargetExponent_unit (a := a) hm)
  rw [roundWithAccuracy]
  generalize shiftToTargetExponent binary64 m e a = first at hround hunit
  obtain ⟨em, t⟩ := first
  obtain rfl : t = unitExponent m e := hunit
  obtain ⟨hmantissa, hexponent⟩ := shiftToTargetExponent_carry hround.le hround.min
  refine ⟨em.roundedMantissa, unitExponent m e, hround, ?_⟩
  simp only at hmantissa hexponent ⊢
  rw [ofParts, ← hexponent]
  simp only [hmantissa]

theorem unpack_pack_subnormal (hpos : 0 < m) (hlt : m < 2 ^ 52) :
    UnpackedFloat.unpack binary64 (UnpackedFloat.pack binary64 (.finite s m (-1074) hpos)) =
      .finite s m (-1074) hpos := by
  have hlog : m.log2 < 52 := (Nat.log2_lt (by omega)).mpr hlt
  have hbits : m.log2 + 1 ≠ binary64.mantissaBits := by
    simp only [mantissaBits]
    omega
  have hbias : (-1074 + binary64.exponentBias + (52 : Nat) : Int).toNat = 1 := by decide
  have hmantissa : (BitVec.ofNat 52 m).toNat = m := by
    rw [BitVec.toNat_ofNat, Nat.mod_eq_of_lt hlt]
  have hnonzero : BitVec.ofNat 52 m ≠ 0#52 := by
    intro heq
    rw [heq] at hmantissa
    simp at hmantissa
    omega
  rw [UnpackedFloat.pack]
  simp only [hbias]
  rw [if_neg (by decide), if_neg hbits, UnpackedFloat.unpack]
  simp only [unpackExponent_packComponents, unpackMantissa_packComponents, ofBitVec_unpackSign]
  rw [if_neg (by decide), if_pos trivial, dif_neg hnonzero, UnpackedFloat.finite.injEq]
  exact ⟨rfl, hmantissa, by decide⟩

/-- Doubles are packed without loss. -/
theorem exact_pack (s : Sign) (h : IsDouble m e) :
    Exact.ofUnpacked (UnpackedFloat.unpack binary64 (UnpackedFloat.pack binary64 (ofParts s m e))) =
      .finite (isNegative s) m e := by
  obtain ⟨hlt, hmin, hmax, hfull⟩ := h
  rw [ofParts]
  split
  · rename_i hzero
    obtain rfl : e = -1074 := by omega
    subst hzero
    cases s <;> rfl
  · rename_i hne
    rcases Nat.lt_or_ge m (2 ^ 52) with hsmall | hlarge
    · obtain rfl : e = -1074 := by omega
      rw [unpack_pack_subnormal _ hsmall]
      rfl
    · rw [unpack_pack_finite _ hlarge hlt hmin hmax]
      rfl

end RecordLogic.Number
