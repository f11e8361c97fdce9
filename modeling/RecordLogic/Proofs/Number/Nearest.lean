import Mathlib
import RecordLogic.Number.Digits
import RecordLogic.Proofs.Number.Rounding

namespace RecordLogic.Number

open Float.Model Float.Model.Format Float.Model.UnpackedFloat

variable {q v : ℚ} {x y : Float} {a : Accuracy} {negative : Bool} {m n k r : Nat} {e f t : Int}

def Exact.value : Exact → ℚ
  | .finite negative m e => (if negative then -1 else 1) * (m * 2 ^ e)
  | _ => 0

/-- The number that a finite double stands for. -/
def value (x : Float) : ℚ := (Exact.ofFloat x).value

theorem value_of_finite (h : Exact.ofFloat x = .finite negative m e) :
    value x = (if negative then -1 else 1) * (m * 2 ^ e) := by
  rw [value, h, Exact.value]

theorem isDouble_of_finite (h : Exact.ofFloat x = .finite negative m e) : IsDouble m e := by
  simp only [Exact.ofFloat] at h
  split at h
  · split at h <;> cases h
  · split at h
    · cases h
      exact ⟨by omega, by omega, by omega, by omega⟩
    · cases h
      exact ⟨by omega, by omega, by omega, by omega⟩

/-- Whole numbers of units that are not the rounded one are at least as far away. -/
theorem Rounded.le_of_units (h : Rounded v r t) (j : ℤ) (hne : j * (2 : ℚ) ^ t ≠ r * 2 ^ t) :
    (2 : ℚ) ^ t / 2 ≤ |j * (2 : ℚ) ^ t - v| := by
  have hunit : (0 : ℚ) < 2 ^ t := by positivity
  have hapart : (2 : ℚ) ^ t ≤ |j * (2 : ℚ) ^ t - r * 2 ^ t| := by
    have hjr : j - r ≠ 0 := by
      intro hzero
      obtain rfl : j = r := by omega
      exact hne (by rw [Int.cast_natCast])
    have hone : (1 : ℚ) ≤ |((j - r : ℤ) : ℚ)| := by exact_mod_cast Int.one_le_abs hjr
    rw [← sub_mul, abs_mul, abs_of_pos hunit, ← Int.cast_natCast, ← Int.cast_sub]
    exact le_mul_of_one_le_left hunit.le hone
  have htriangle := abs_sub_le (j * (2 : ℚ) ^ t) v (r * 2 ^ t)
  rw [abs_sub_comm v] at htriangle
  have hnear := h.near
  linarith

/-- Numbers with smaller units that have no more bits are below the rounded number. -/
theorem Rounded.le_of_smaller (h : Rounded v r t) (hk : k < 2 ^ 53) (hmin : -1074 ≤ f) (hf : f < t)
    (hq : q ≤ k * 2 ^ f) : (2 : ℚ) ^ t / 2 ≤ |q - v| := by
  have hpow : (2 : ℚ) ^ f ≤ 2 ^ t / 2 := by
    have hle : (2 : ℚ) ^ f ≤ 2 ^ (t - 1) := zpow_le_zpow_right₀ one_le_two (by omega)
    rwa [zpow_sub_one₀ two_ne_zero, ← div_eq_mul_inv] at hle
  have hbits : (k : ℚ) + 1 ≤ 2 ^ 53 := by exact_mod_cast hk
  have hmul : (k : ℚ) * 2 ^ f ≤ (2 ^ 53 - 1) * (2 ^ t / 2) :=
    mul_le_mul (by linarith) hpow (by positivity) (by norm_num)
  have hlow := h.low.resolve_right (by omega)
  rw [abs_sub_comm]
  refine le_trans ?_ (le_abs_self _)
  linarith

theorem Rounded.le_of_isFinite (h : Rounded v r t) (hy : y.isFinite = true)
    (hne : value y ≠ r * 2 ^ t) : (2 : ℚ) ^ t / 2 ≤ |value y - v| := by
  obtain ⟨negative, k, f, hy⟩ := (isFinite_iff y).mp hy
  have hdouble := isDouble_of_finite hy
  have hvalue := value_of_finite hy
  rcases lt_or_ge f t with hf | hf
  · apply h.le_of_smaller hdouble.lt hdouble.min hf
    have hpos : (0 : ℚ) ≤ k * 2 ^ f := by positivity
    rw [hvalue]
    split <;> linarith
  · have hunits :
        value y = ((if negative then -1 else 1) * (k * 2 ^ (f - t).toNat) : ℤ) * 2 ^ t := by
      have hpow : (2 : ℚ) ^ f = 2 ^ (f - t).toNat * 2 ^ t := by
        rw [← zpow_natCast, ← two_zpow_add, Int.toNat_of_nonneg (by omega), sub_add_cancel]
      rw [hvalue, hpow]
      push_cast
      ring
    rw [hunits] at hne ⊢
    exact h.le_of_units _ hne

/-- No finite double is nearer to the number than this one, and its mantissa is even if another one
is as near. -/
structure Nearest (q : ℚ) (x : Float) : Prop where
  isFinite : x.isFinite = true
  near : ∀ y : Float, y.isFinite = true → |value x - q| ≤ |value y - q|
  even : ∀ y : Float, y.isFinite = true → value y ≠ value x → |value y - q| = |value x - q| →
    ∃ negative m e, Exact.ofFloat x = .finite negative m e ∧ m % 2 = 0

/-- The double is the number rounded to 53 bits, unless that is too large for a double. -/
def RoundsTo (v : ℚ) (x : Float) : Prop :=
  ∃ r t, Rounded v r t ∧ (IsDouble (carry r t).1 (carry r t).2 →
    Exact.ofFloat x = .finite false (carry r t).1 (carry r t).2)

theorem nearest_of_roundsTo (h : RoundsTo v x) (hmax : v < (2 ^ 53 - 1 / 2) * 2 ^ (971 : Int)) :
    Nearest v x := by
  obtain ⟨r, t, h, hexact⟩ := h
  have hx := hexact (h.isDouble hmax)
  have hvalue : value x = r * 2 ^ t := by
    rw [value_of_finite hx, if_neg Bool.false_ne_true, one_mul, carry_value]
  refine ⟨(isFinite_iff x).mpr ⟨_, _, _, hx⟩, fun y hy => ?_, fun y hy hne heq => ?_⟩
  · by_cases hsame : value y = value x
    · rw [hsame]
    · rw [hvalue] at hsame ⊢
      exact h.near.trans (h.le_of_isFinite hy hsame)
  · rw [hvalue] at hne heq
    have hfar := h.le_of_isFinite hy hne
    exact ⟨_, _, _, hx, carry_even t (h.even (le_antisymm h.near (heq ▸ hfar)))⟩

theorem roundsTo_of_unpack (hx : x.toModel.unpack = UnpackedFloat.unpack binary64
      (UnpackedFloat.pack binary64 (roundWithAccuracy binary64 .positive m e a)))
    (h : Describes v (2 ^ e) (ExtendedMantissa.ofMantissaAndAccuracy m a))
    (hm : 2 ^ 52 ≤ m ∨ e ≤ -1074) : RoundsTo v x := by
  obtain ⟨r, t, hround, hparts⟩ := exists_rounded .positive h hm
  refine ⟨r, t, hround, fun hdouble => ?_⟩
  rw [Exact.ofFloat_eq, hx, hparts]
  exact exact_pack .positive hdouble

theorem rounded_of_isDouble (h : IsDouble m e) : Rounded (m * 2 ^ e) m e := by
  have hunit : (0 : ℚ) < 2 ^ e := by positivity
  have hlt : ((m : ℕ) : ℚ) < 2 ^ 53 := by exact_mod_cast h.lt
  refine ⟨h.min, h.full.imp_left fun hfull => ?_, mul_lt_mul_of_pos_right hlt hunit, ?_, ?_⟩
  · have hcast : (2 ^ 52 : ℚ) ≤ m := by exact_mod_cast hfull
    exact mul_le_mul_of_nonneg_right hcast hunit.le
  · rw [sub_self, abs_zero]
    linarith
  · rw [sub_self, abs_zero]
    intro hzero
    linarith

theorem carry_of_isDouble (h : IsDouble m e) : carry m e = (m, e) :=
  if_neg h.lt.ne

theorem roundsTo_of_finite (h : Exact.ofFloat x = .finite false m e) : RoundsTo (m * 2 ^ e) x := by
  have hdouble := isDouble_of_finite h
  refine ⟨m, e, rounded_of_isDouble hdouble, fun _ => ?_⟩
  rw [carry_of_isDouble hdouble, h]

theorem fullMantissa_value (hn : 0 < n) (hlt : n < 2 ^ 53) :
    (fullMantissa n : ℚ) * 2 ^ ((n.log2 : ℤ) - 52) = n := by
  have hlog := log2_lt_of_lt hn hlt
  have hpow : (2 : ℚ) ^ (52 - n.log2) * 2 ^ ((n.log2 : ℤ) - 52) = 1 := by
    rw [← zpow_natCast, ← two_zpow_add, Nat.cast_sub (by omega)]
    norm_num
  rw [fullMantissa, Nat.cast_mul, Nat.cast_pow, Nat.cast_ofNat, mul_assoc, hpow, mul_one]

/-- A number with more than 53 bits is moved to the left by 53 places and rounded once. -/
theorem unpack_ofNat_of_le (hn : 2 ^ 53 ≤ n) :
    (Float.ofNat n).toModel.unpack = UnpackedFloat.unpack binary64 (UnpackedFloat.pack binary64
      (roundWithAccuracy binary64 .positive (n * 2 ^ 53) (-53) .exact)) := by
  have hexponent : ¬(0 : Int) < -((2 ^ binary64.exponentBits : Int) + n.log2) := by
    simp only
    omega
  change (Float.ofScientific n false 0).toModel.unpack = _
  rw [Float.ofScientific, dif_neg (by omega)]
  change UnpackedFloat.unpack binary64 (UnpackedFloat.pack binary64
    (UnpackedFloat.ofScientific binary64 n 0)) = _
  rw [UnpackedFloat.ofScientific, dif_neg (by omega), if_neg (by decide), if_neg hexponent,
    if_pos (by omega), UnpackedFloat.mul, Nat.shiftLeft_eq, Int.toNat_zero, Nat.pow_zero,
    Nat.mul_one]
  rfl

/-- Whole numbers are rounded to 53 bits. -/
theorem roundsTo_ofNat (n : Nat) : RoundsTo n (Float.ofNat n) := by
  rcases Nat.lt_or_ge n (2 ^ 53) with hlt | hle
  · rcases Nat.eq_zero_or_pos n with rfl | hpos
    · have hzero : Exact.ofFloat (Float.ofNat 0) = .finite false 0 (-1074) := by decide
      simpa using roundsTo_of_finite hzero
    · have hexact :
          Exact.ofFloat (Float.ofNat n) = .finite false (fullMantissa n) (n.log2 - 52) := by
        rw [Exact.ofFloat_eq, unpack_ofNat hpos hlt]
        rfl
      have hrounds := roundsTo_of_finite hexact
      rwa [fullMantissa_value hpos hlt] at hrounds
  · have hvalue : ((n * 2 ^ 53 : Nat) : ℚ) * 2 ^ (-53 : Int) = n := by
      rw [Nat.cast_mul, mul_assoc]
      norm_num
    apply roundsTo_of_unpack (unpack_ofNat_of_le hle)
    · rw [← hvalue]
      exact describes_exact _ _
    · left
      omega

/-- Whole numbers that 64 bits hold are converted to the nearest double. -/
theorem nearest_ofNat (hn : n ≤ maxWord) : Nearest n (Float.ofNat n) := by
  apply nearest_of_roundsTo (roundsTo_ofNat n)
  have hword : (n : ℚ) ≤ maxWord := by exact_mod_cast hn
  have hmax : (maxWord : ℚ) < (2 ^ 53 - 1 / 2) * 2 ^ (64 : Int) := by norm_num [maxWord]
  have hpow : (2 : ℚ) ^ (64 : Int) ≤ 2 ^ (971 : Int) := zpow_le_zpow_right₀ one_le_two (by decide)
  generalize (2 : ℚ) ^ (971 : Int) = unit at hpow
  linarith

end RecordLogic.Number
