import RecordLogic.Proofs.Number.Interval

namespace RecordLogic.Number

variable {v q : ℚ} {m n r c fuel : Nat} {e t u : Int} {tie : Tie}

theorem length_toDigits_pos (n : Nat) : 0 < (Nat.toDigits 10 n).length :=
  List.length_pos_iff.mpr Nat.toDigits_ne_nil

theorem lt_pow_length_toDigits (n : Nat) : n < 10 ^ (Nat.toDigits 10 n).length :=
  (Nat.length_toDigits_le_iff (by decide) (length_toDigits_pos n)).mp (le_refl _)

theorem pow_length_toDigits_le (hn : 0 < n) : 10 ^ ((Nat.toDigits 10 n).length - 1) ≤ n := by
  by_contra hlt
  rcases Nat.eq_zero_or_pos ((Nat.toDigits 10 n).length - 1) with hzero | hpos
  · rw [hzero, pow_zero] at hlt
    omega
  · have hle := (Nat.length_toDigits_le_iff (by decide) hpos).mpr (not_le.mp hlt)
    have hlength := length_toDigits_pos n
    omega

theorem length_toDigits_le_log2 (hn : 0 < n) : (Nat.toDigits 10 n).length ≤ n.log2 + 1 := by
  have hpow : 2 ^ ((Nat.toDigits 10 n).length - 1) ≤ n :=
    (Nat.pow_le_pow_left (by decide) _).trans (pow_length_toDigits_le hn)
  have hlog := (Nat.le_log2 hn.ne').mpr hpow
  omega

theorem strip_value (fuel : Nat) (d : Decimal) :
    ((d.strip fuel).digits : ℚ) * 10 ^ (d.strip fuel).exponent = d.digits * 10 ^ d.exponent := by
  induction fuel generalizing d with
  | zero => rfl
  | succ fuel ih =>
    rw [Decimal.strip]
    split
    · rename_i hzero
      have hten : ((10 * (d.digits / 10) : Nat) : ℚ) = d.digits := by
        rw [Nat.mul_div_cancel' (Nat.dvd_of_mod_eq_zero hzero)]
      rw [ih, zpow_add_one₀ (by norm_num), ← hten]
      push_cast
      ring
    · rfl

theorem has_of_nearest? {i : Interval} (h : i.nearest? tie = some c) : i.has c = true := by
  simp only [Interval.nearest?] at h
  split at h
  · cases h
    assumption
  · cases h
    assumption
  · cases h
  · split at h
    · cases h
      assumption
    split at h
    · cases h
      assumption
    split at h
    · cases h
      assumption
    · split at h <;> cases h <;> assumption

theorem nearest?_ne_none {i : Interval}
    (h : i.has (i.value / i.denominator) = true ∨ i.has (i.value / i.denominator + 1) = true) :
    i.nearest? tie ≠ none := by
  simp only [Interval.nearest?]
  split
  · simp
  · simp
  · simp_all
  · split
    · simp
    split
    · simp
    · cases tie <;> simp

/-- The value has at least so many digits before its point. -/
theorem point_le {i : Interval} (hvalue : 0 < i.value) (hd : 0 < i.denominator) :
    (10 : ℚ) ^ (i.point - 1) * i.denominator ≤ i.value := by
  rw [Interval.point]
  split
  · rename_i hle
    have hpow := pow_length_toDigits_le (Nat.div_pos hle hd)
    have hlength := length_toDigits_pos (i.value / i.denominator)
    have hexponent : ((Nat.toDigits 10 (i.value / i.denominator)).length : ℤ) - 1 =
        ((Nat.toDigits 10 (i.value / i.denominator)).length - 1 : Nat) := by omega
    have hmul := (Nat.le_div_iff_mul_le hd).mp hpow
    rw [hexponent, zpow_natCast]
    exact_mod_cast hmul
  · rename_i hlt
    have hpow := (Nat.div_lt_iff_lt_mul hvalue).mp
      (lt_pow_length_toDigits ((i.denominator - 1) / i.value))
    have hmul : i.denominator ≤
        10 ^ (Nat.toDigits 10 ((i.denominator - 1) / i.value)).length * i.value := by omega
    have hcast : (i.denominator : ℚ) ≤
        10 ^ (Nat.toDigits 10 ((i.denominator - 1) / i.value)).length * i.value := by
      exact_mod_cast hmul
    rw [sub_sub_cancel_left, zpow_neg, zpow_natCast, inv_mul_le_iff₀ (by positivity)]
    exact hcast

/-- Where a double has seventeen digits before the point, its interval reaches further than half a
unit on both sides. -/
theorem within_of_near (hm : m < 2 ^ 53) (hlarge : 10 ^ 16 ≤ (m : ℚ) * 2 ^ e * 10 ^ (-u))
    (hn : |n - (m : ℚ) * 2 ^ e * 10 ^ (-u)| ≤ 1 / 2) : Within m e (n * 10 ^ u) := by
  have hten : (0 : ℚ) < 10 ^ u := by positivity
  obtain ⟨g, hg⟩ : ∃ g : ℚ, g = 2 ^ e * 10 ^ (-u) := ⟨_, rfl⟩
  have hpos : 0 < g := by
    rw [hg]
    positivity
  have hunit : (2 : ℚ) ^ e = g * 10 ^ u := by
    rw [hg, mul_assoc, ← zpow_add₀ (by norm_num), neg_add_cancel, zpow_zero, mul_one]
  rw [mul_assoc, ← hg] at hlarge hn
  have hcast : (m : ℚ) ≤ 2 ^ 53 := by exact_mod_cast hm.le
  have hmul : (m : ℚ) * g ≤ 2 ^ 53 * g := mul_le_mul_of_nonneg_right hcast hpos.le
  have hhalf : 1 / 2 < below m e * g := by
    rw [below]
    split
    · rename_i hpower
      simp only [Bool.and_eq_true, decide_eq_true_eq] at hpower
      rw [hpower.1] at hlarge
      push_cast at hlarge
      linarith
    · linarith
  obtain ⟨hleft, hright⟩ := abs_le.mp hn
  apply within_of_lt
  · rw [hunit, ← mul_assoc]
    apply mul_lt_mul_of_pos_right _ hten
    linarith
  · rw [hunit, ← mul_assoc]
    apply mul_lt_mul_of_pos_right _ hten
    linarith

theorem value_ofScaled (m : Nat) (e : Int) : ((Interval.ofScaled m e).value : ℚ) =
    m * 2 ^ e * (Interval.ofScaled m e).denominator := by
  have hvalue := value_unitsOf m e 0
  simpa [unitsOf, Interval.inUnits] using hvalue

/-- Sixteen powers of ten below the first digit of a double there are seventeen digits. -/
theorem pow_le_of_point (hm : 0 < m) (hu : u = (Interval.ofScaled m e).point - 17) :
    10 ^ 16 ≤ (m : ℚ) * 2 ^ e * 10 ^ (-u) := by
  have hvalue : 0 < (Interval.ofScaled m e).value :=
    Nat.mul_pos (Nat.mul_pos (by decide) hm) (Nat.two_pow_pos _)
  have hd : 0 < (Interval.ofScaled m e).denominator := Nat.two_pow_pos _
  have hdpos : (0 : ℚ) < (Interval.ofScaled m e).denominator := by exact_mod_cast hd
  have hpoint := point_le hvalue hd
  rw [value_ofScaled] at hpoint
  have hpow : (10 : ℚ) ^ 16 = 10 ^ ((Interval.ofScaled m e).point - 1) * 10 ^ (-u) := by
    rw [← zpow_natCast, ← zpow_add₀ (by norm_num), hu]
    congr 1
    omega
  rw [hpow]
  exact mul_le_mul_of_nonneg_right (le_of_mul_le_mul_right hpoint hdpos) (by positivity)

/-- Seventeen digits are always enough. -/
theorem nearest?_of_seventeen (hm : 0 < m) (hlt : m < 2 ^ 53)
    (hu : u = (Interval.ofScaled m e).point - 17) : (unitsOf m e u).nearest? tie ≠ none := by
  have hd := denominator_pos m e u
  have hdpos : (0 : ℚ) < (unitsOf m e u).denominator := by exact_mod_cast hd
  have hlarge := pow_le_of_point hm hu
  have hvalue := value_unitsOf m e u
  apply nearest?_ne_none
  rw [has_unitsOf_iff hm, has_unitsOf_iff hm]
  have hfloor : (((unitsOf m e u).value / (unitsOf m e u).denominator : Nat) : ℚ) ≤
      m * 2 ^ e * 10 ^ (-u) := by
    apply le_of_mul_le_mul_right _ hdpos
    rw [← hvalue]
    exact_mod_cast Nat.div_mul_le_self _ _
  have hceil : (m : ℚ) * 2 ^ e * 10 ^ (-u) <
      ((unitsOf m e u).value / (unitsOf m e u).denominator + 1 : Nat) := by
    apply lt_of_mul_lt_mul_right _ hdpos.le
    rw [← hvalue]
    exact_mod_cast (Nat.div_lt_iff_lt_mul hd).mp (Nat.lt_succ_self _)
  generalize (unitsOf m e u).value / (unitsOf m e u).denominator = c at hfloor hceil ⊢
  push_cast at hceil
  rcases le_or_gt ((m : ℚ) * 2 ^ e * 10 ^ (-u)) (c + 1 / 2) with hside | hside
  · left
    apply within_of_near hlt hlarge
    rw [abs_le]
    constructor <;> linarith
  · right
    apply within_of_near hlt hlarge
    rw [abs_le]
    push_cast
    constructor <;> linarith

/-- By induction on the fuel: each grid of up to seventeen digits is either met or too coarse. -/
theorem within_search (hm : 0 < m) (hlt : m < 2 ^ 53) (tie : Tie) (hfuel : n + fuel = 18)
    (hn : n ≤ 17) : Within m e (((Interval.ofScaled m e).search tie n fuel).digits *
      10 ^ ((Interval.ofScaled m e).search tie n fuel).exponent) := by
  induction fuel generalizing n with
  | zero => omega
  | succ fuel ih =>
    rw [Interval.search]
    split
    · rename_i c hnearest
      rw [strip_value]
      exact (has_unitsOf_iff hm e _ c).mp (has_of_nearest? hnearest)
    · rename_i hnone
      have hcoarse : n ≠ 17 := by
        rintro rfl
        exact nearest?_of_seventeen hm hlt rfl hnone
      exact ih (by omega) (by omega)

/-- The shortest decimal of a double is rounded to the double. -/
theorem within_shortest (hm : 0 < m) (hlt : m < 2 ^ 53) (tie : Tie) (e : Int) :
    Within m e ((shortest tie m e).digits * 10 ^ (shortest tie m e).exponent) :=
  within_search hm hlt tie rfl (by decide)

end RecordLogic.Number
