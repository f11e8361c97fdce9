import Mathlib
import RecordLogic.Number.Shortest
import RecordLogic.Proofs.Number.Digits
import RecordLogic.Proofs.Number.Nearest

namespace RecordLogic.Number

variable {v q : ℚ} {m n r c fuel : Nat} {e t u : Int} {tie : Tie}

/-- The distance to the middle below, in units of the last place. The double below a power of two is
half as far away. -/
def below (m : Nat) (e : Int) : ℚ :=
  if m = 4_503_599_627_370_496 && -1074 < e then 1 / 4 else 1 / 2

/-- The number is between the middles of the double and its neighbours, or on one of them if the
mantissa is even. -/
structure Within (m : Nat) (e : Int) (v : ℚ) : Prop where
  low : (m - below m e) * 2 ^ e ≤ v
  high : v ≤ (m + 1 / 2) * 2 ^ e
  even : v = (m - below m e) * 2 ^ e ∨ v = (m + 1 / 2) * 2 ^ e → m % 2 = 0

theorem below_le (m : Nat) (e : Int) : below m e ≤ 1 / 2 := by
  rw [below]
  split <;> norm_num

theorem below_pos (m : Nat) (e : Int) : 0 < below m e := by
  rw [below]
  split <;> norm_num

theorem within_of_lt (hlow : (m - below m e) * 2 ^ e < v) (hhigh : v < (m + 1 / 2) * 2 ^ e) :
    Within m e v := by
  refine ⟨hlow.le, hhigh.le, fun h => ?_⟩
  rcases h with h | h
  · exact absurd h hlow.ne'
  · exact absurd h hhigh.ne

theorem within_self (m : Nat) (e : Int) : Within m e (m * 2 ^ e) := by
  have hunit : (0 : ℚ) < 2 ^ e := by positivity
  have hbelow := below_pos m e
  apply within_of_lt
  · exact mul_lt_mul_of_pos_right (by linarith) hunit
  · exact mul_lt_mul_of_pos_right (by linarith) hunit

/-- What is rounded down from the middle to the next number becomes even. -/
theorem Rounded.even_of_down (h : Rounded v r t) (hv : v = (r + 1 / 2) * 2 ^ t) : r % 2 = 0 := by
  apply h.even
  rw [hv, ← sub_mul, sub_add_cancel_left, neg_mul, abs_neg, abs_of_pos (by positivity)]
  ring

theorem Rounded.even_of_up (h : Rounded v r t) (hv : v = (r - 1 / 2) * 2 ^ t) : r % 2 = 0 := by
  apply h.even
  rw [hv, ← sub_mul, sub_sub_cancel, abs_of_pos (by positivity)]
  ring

/-- In the units of the double the rounded number is its mantissa: the neighbours are as near only
from the middle, where they are odd. -/
theorem Rounded.eq_of_same_unit (h : Rounded v r e) (hw : Within m e v) : r = m := by
  have hunit : (0 : ℚ) < 2 ^ e := by positivity
  have hbelow := below_le m e
  obtain ⟨hleft, hright⟩ := abs_le.mp h.near
  have hhigh := hw.high
  have hlow : (m - 1 / 2) * (2 : ℚ) ^ e ≤ v :=
    (mul_le_mul_of_nonneg_right (by linarith) hunit.le).trans hw.low
  have hup : r ≤ m + 1 := by
    have hle : (r : ℚ) * 2 ^ e ≤ (m + 1 : Nat) * 2 ^ e := by
      push_cast
      linarith
    exact Nat.cast_le.mp (le_of_mul_le_mul_right hle hunit)
  have hdown : m ≤ r + 1 := by
    have hle : (m : ℚ) * 2 ^ e ≤ (r + 1 : Nat) * 2 ^ e := by
      push_cast
      linarith
    exact Nat.cast_le.mp (le_of_mul_le_mul_right hle hunit)
  by_contra hne
  rcases Nat.lt_or_gt_of_ne hne with hlt | hgt
  · obtain rfl : m = r + 1 := by omega
    push_cast at hlow
    have hmiddle : v = (r + 1 / 2) * 2 ^ e := by linarith
    have hend : v = ((r + 1 : Nat) - below (r + 1) e) * 2 ^ e := by
      apply le_antisymm _ hw.low
      rw [hmiddle]
      apply mul_le_mul_of_nonneg_right _ hunit.le
      push_cast
      linarith
    have heven := hw.even (Or.inl hend)
    have hodd := h.even_of_down hmiddle
    omega
  · obtain rfl : r = m + 1 := by omega
    push_cast at hright
    have hmiddle : v = (m + 1 / 2) * 2 ^ e := by linarith
    have hodd := h.even_of_up (by
      push_cast
      linarith)
    have heven := hw.even (Or.inr hmiddle)
    omega

/-- Smaller units hold a number that is rounded to the double only if it is just below a power of
two. -/
theorem Within.power_of_smaller_unit (hw : Within m e v) (hfull : 2 ^ 52 ≤ m) (ht : t < e)
    (hv : v < 2 ^ 53 * 2 ^ t) : e = t + 1 ∧ m = 2 ^ 52 := by
  have hunit : (0 : ℚ) < 2 ^ t := by positivity
  have hlow := hw.low
  have hbelow := below_le m e
  obtain rfl : e = t + 1 := by
    by_contra hne
    have hpow : 4 * (2 : ℚ) ^ t ≤ 2 ^ e := by
      have hfour : (4 : ℚ) * 2 ^ t = 2 ^ (t + 2) := by
        rw [two_zpow_add]
        norm_num
        ring
      rw [hfour]
      exact zpow_le_zpow_right₀ one_le_two (by omega)
    have hm : (2 ^ 52 : ℚ) ≤ m := by exact_mod_cast hfull
    have hle : (2 ^ 52 - 1 / 2) * (4 * (2 : ℚ) ^ t) ≤ (m - below m e) * 2 ^ e :=
      mul_le_mul (by linarith) hpow (by positivity) (by linarith)
    linarith
  refine ⟨rfl, ?_⟩
  by_contra hne
  rw [two_zpow_add, zpow_one] at hlow
  have hsucc : (2 ^ 52 + 1 : ℚ) ≤ m := by
    have hnat : 2 ^ 52 + 1 ≤ m := by omega
    exact_mod_cast hnat
  have hle : (2 ^ 52 + 1 / 2) * ((2 : ℚ) ^ t * 2) ≤ (m - below m (t + 1)) * (2 ^ t * 2) :=
    mul_le_mul_of_nonneg_right (by linarith) (by positivity)
  linarith

/-- From the last middle on, numbers are rounded up to 54 bits. -/
theorem Rounded.eq_of_last_middle (h : Rounded v r t) (hv : (2 ^ 53 - 1 / 2) * 2 ^ t ≤ v) :
    r = 2 ^ 53 := by
  have hunit : (0 : ℚ) < 2 ^ t := by positivity
  have hle := h.le
  have hhigh := h.high
  have hnear := (abs_le.mp h.near).1
  have hlarge : ((2 ^ 53 - 1 : Nat) : ℚ) * 2 ^ t ≤ r * 2 ^ t := by
    norm_num
    linarith
  have hnat := Nat.cast_le.mp (le_of_mul_le_mul_right hlarge hunit)
  by_contra hne
  obtain rfl : r = 2 ^ 53 - 1 := by omega
  have hodd := h.even_of_down (by
    norm_num at hnear hv ⊢
    linarith)
  norm_num at hodd

/-- Half as large units are needed only just below a power of two, and the rounding carries into
it. -/
theorem Rounded.carry_of_smaller_unit (h : Rounded v r t) (hd : IsDouble m e) (hw : Within m e v)
    (ht : t < e) : carry r t = (m, e) := by
  have hmin := h.min
  have hfull : 2 ^ 52 ≤ m := hd.full.resolve_right (by omega)
  obtain ⟨rfl, rfl⟩ := hw.power_of_smaller_unit hfull ht h.high
  have hquarter : below (2 ^ 52) (t + 1) = 1 / 4 := by
    rw [below, if_pos]
    simp only [Bool.and_eq_true, decide_eq_true_eq]
    omega
  have hlow := hw.low
  rw [hquarter, two_zpow_add, zpow_one] at hlow
  push_cast at hlow
  rw [carry, if_pos (h.eq_of_last_middle (by linarith))]

/-- All numbers of the interval are rounded to the double. -/
theorem Rounded.carry_eq (h : Rounded v r t) (hd : IsDouble m e) (hw : Within m e v) :
    carry r t = (m, e) := by
  rcases lt_trichotomy t e with ht | rfl | ht
  · exact h.carry_of_smaller_unit hd hw ht
  · rw [h.eq_of_same_unit hw, carry_of_isDouble hd]
  · have hmin := hd.min
    have hlow := h.low.resolve_right (by omega)
    have hpow : 2 * (2 : ℚ) ^ e ≤ 2 ^ t := by
      rw [← zpow_one_add₀ two_ne_zero]
      exact zpow_le_zpow_right₀ one_le_two (by omega)
    have hunit : (0 : ℚ) < 2 ^ e := by positivity
    have hm : (m : ℚ) + 1 ≤ 2 ^ 53 := by exact_mod_cast hd.lt
    have hhigh := hw.high
    have hle : (m + 1 / 2) * (2 : ℚ) ^ e ≤ (2 ^ 53 - 1 / 2) * 2 ^ e :=
      mul_le_mul_of_nonneg_right (by linarith) hunit.le
    linarith

theorem RoundsTo.eq_finite {x : Float} (h : RoundsTo v x) (hd : IsDouble m e) (hw : Within m e v) :
    Exact.ofFloat x = .finite false m e := by
  obtain ⟨r, t, hround, hexact⟩ := h
  rw [hround.carry_eq hd hw] at hexact
  exact hexact hd

theorem pow_toNat (b : ℚ) (hb : b ≠ 0) (k : Int) : b ^ k.toNat = b ^ k * b ^ (-k).toNat := by
  rcases le_total 0 k with hk | hk
  · have hnat : (-k).toNat = 0 := by omega
    rw [hnat, pow_zero, mul_one, ← zpow_natCast, Int.toNat_of_nonneg hk]
  · have hnat : k.toNat = 0 := by omega
    rw [hnat, pow_zero, ← zpow_natCast, Int.toNat_of_nonneg (by omega), ← zpow_add₀ hb,
      add_neg_cancel, zpow_zero]

/-- The interval of a double in units `10 ^ u`. -/
def unitsOf (m : Nat) (e u : Int) : Interval := (Interval.ofScaled m e).inUnits u

theorem denominator_pos (m : Nat) (e u : Int) : 0 < (unitsOf m e u).denominator :=
  Nat.mul_pos (Nat.two_pow_pos _) (Nat.pow_pos (by decide))

/-- Quarters of the unit of the double in the units of the interval. -/
theorem quarters_unitsOf (n m : Nat) (e u : Int) :
    ((n * Nat.pow 2 (e - 2).toNat * Nat.pow 10 (-u).toNat : Nat) : ℚ) =
      n / 4 * 2 ^ e * 10 ^ (-u) * (unitsOf m e u).denominator := by
  have htwo := pow_toNat 2 two_ne_zero (e - 2)
  have hten := pow_toNat 10 (by norm_num) (-u)
  rw [neg_sub] at htwo
  rw [neg_neg] at hten
  have hfour : (2 : ℚ) ^ (e - 2) * 4 = 2 ^ e := by
    rw [zpow_sub₀ two_ne_zero]
    norm_num
  simp only [unitsOf, Interval.inUnits, Interval.ofScaled, Nat.pow_eq, Nat.cast_mul, Nat.cast_pow,
    Nat.cast_ofNat, htwo, hten, ← hfour]
  ring

theorem value_unitsOf (m : Nat) (e u : Int) : ((unitsOf m e u).value : ℚ) =
    m * 2 ^ e * 10 ^ (-u) * (unitsOf m e u).denominator := by
  have hquarters := quarters_unitsOf (4 * m) m e u
  have hcast : ((4 * m : Nat) : ℚ) / 4 = m := by
    push_cast
    ring
  rwa [hcast] at hquarters

theorem upper_unitsOf (m : Nat) (e u : Int) : ((unitsOf m e u).upper : ℚ) =
    (m + 1 / 2) * 2 ^ e * 10 ^ (-u) * (unitsOf m e u).denominator := by
  have hquarters := quarters_unitsOf (4 * m + 2) m e u
  have hcast : ((4 * m + 2 : Nat) : ℚ) / 4 = m + 1 / 2 := by
    push_cast
    ring
  rwa [hcast] at hquarters

theorem lower_unitsOf (hm : 0 < m) (e u : Int) : ((unitsOf m e u).lower : ℚ) =
    (m - below m e) * 2 ^ e * 10 ^ (-u) * (unitsOf m e u).denominator := by
  have hcast : ((4 * m - (if m = 4_503_599_627_370_496 && -1074 < e then 1 else 2) : Nat) : ℚ) / 4 =
      m - below m e := by
    rw [below]
    split
    · rw [Nat.cast_sub (by omega)]
      push_cast
      ring
    · rw [Nat.cast_sub (by omega)]
      push_cast
      ring
  have hquarters := quarters_unitsOf
    (4 * m - (if m = 4_503_599_627_370_496 && -1074 < e then 1 else 2)) m e u
  rwa [hcast] at hquarters

section Units

variable {k d : Nat}

/-- An end of an interval in units lies to a count as the number itself does. -/
theorem cmp_units (hd : 0 < d) (hk : (k : ℚ) = q * 10 ^ (-u) * d) :
    cmp k (n * d) = cmp q (n * 10 ^ u) := by
  have hpos : (0 : ℚ) < d := by exact_mod_cast hd
  have hten : (0 : ℚ) < 10 ^ u := by positivity
  have hq : q = q * 10 ^ (-u) * 10 ^ u := by
    rw [mul_assoc, ← zpow_add₀ (by norm_num), neg_add_cancel, zpow_zero, mul_one]
  rw [← (Nat.strictMono_cast (α := ℚ)).cmp_map_eq, hk, Nat.cast_mul, cmp_mul_pos_right hpos, hq,
    cmp_mul_pos_right hten, ← hq]

theorem units_le_iff (hd : 0 < d) (hk : (k : ℚ) = q * 10 ^ (-u) * d) :
    k ≤ n * d ↔ q ≤ n * 10 ^ u :=
  le_iff_le_of_cmp_eq_cmp (cmp_units hd hk)

theorem le_units_iff (hd : 0 < d) (hk : (k : ℚ) = q * 10 ^ (-u) * d) :
    n * d ≤ k ↔ n * 10 ^ u ≤ q :=
  le_iff_le_of_cmp_eq_cmp (cmp_eq_cmp_symm.mp (cmp_units hd hk))

end Units

theorem closed_unitsOf (m : Nat) (e u : Int) : (unitsOf m e u).closed = decide (m % 2 = 0) :=
  rfl

/-- A whole number of units is in the interval exactly if it is rounded to the double. -/
theorem has_unitsOf_iff (hm : 0 < m) (e u : Int) (n : Nat) :
    (unitsOf m e u).has n = true ↔ Within m e (n * 10 ^ u) := by
  have hpos := denominator_pos m e u
  have hlower := units_le_iff (n := n) hpos (lower_unitsOf hm e u)
  have hupper := le_units_iff (n := n) hpos (upper_unitsOf m e u)
  have hlower' := le_units_iff (n := n) hpos (lower_unitsOf hm e u)
  have hupper' := units_le_iff (n := n) hpos (upper_unitsOf m e u)
  rw [Interval.has, closed_unitsOf]
  by_cases heven : m % 2 = 0
  · simp only [heven, decide_true, if_true, Bool.and_eq_true, decide_eq_true_eq, hlower, hupper]
    exact ⟨fun h => ⟨h.1, h.2, fun _ => heven⟩, fun h => ⟨h.low, h.high⟩⟩
  · simp only [heven, decide_false, Bool.false_eq_true, if_false, Bool.and_eq_true,
      decide_eq_true_eq, ← not_le, hlower', hupper']
    constructor
    · rintro ⟨hlow, hhigh⟩
      exact within_of_lt (not_le.mp hlow) (not_le.mp hhigh)
    · intro h
      have hend := mt h.even heven
      rw [not_or] at hend
      exact ⟨not_le.mpr (lt_of_le_of_ne h.low (Ne.symm hend.1)),
        not_le.mpr (lt_of_le_of_ne h.high hend.2)⟩

end RecordLogic.Number
