import Mathlib
import RecordLogic.Number.Exact
import RecordLogic.Proofs.Number.Sign

namespace RecordLogic.Number

open Float.Model Float.Model.Format Float.Model.UnpackedFloat

variable {s : Sign} {k m j : Nat} {e : Int} {x y : Float} {negative : Bool}

def isNegative : Sign → Bool
  | .negative => true
  | .positive => false

/-- What the parts of a double stand for. -/
def Exact.ofUnpacked : UnpackedFloat → Exact
  | .notANumber => .nan
  | .infinity s => .infinite (isNegative s)
  | .zero s => .finite (isNegative s) 0 (-1074)
  | .finite s m e _ => .finite (isNegative s) m e

theorem toNat_unpackMantissa (b : BitVec 64) :
    (@unpackMantissa binary64 b).toNat = b.toNat % 4_503_599_627_370_496 := by
  simp [unpackMantissa, BitVec.extractLsb]

theorem toNat_unpackExponent (b : BitVec 64) :
    (@unpackExponent binary64 b).toNat = b.toNat / 4_503_599_627_370_496 % 2048 := by
  simp [unpackExponent, BitVec.extractLsb, Nat.shiftRight_eq_div_pow]

theorem isNegative_unpackSign (b : BitVec 64) :
    isNegative (Sign.ofBitVec (@unpackSign binary64 b)) =
      decide (9_223_372_036_854_775_808 ≤ b.toNat) := by
  have hlt := b.isLt
  have hsign : (@unpackSign binary64 b).toNat = b.toNat / 2 ^ 63 := by
    simp [unpackSign, BitVec.extractLsb, Nat.shiftRight_eq_div_pow]
    omega
  by_cases hb : b.toNat < 9_223_372_036_854_775_808
  · have hzero : @unpackSign binary64 b = 0#1 := by
      rw [← BitVec.toNat_inj, hsign]
      exact Nat.div_eq_of_lt hb
    simp [Sign.ofBitVec, hzero, isNegative, hb]
  · have hone : @unpackSign binary64 b ≠ 0#1 := by
      rw [← BitVec.toNat_inj.ne, hsign, BitVec.toNat_ofNat]
      omega
    simp [Sign.ofBitVec, hone, isNegative, Nat.not_lt.mp hb]

/-- Reading the bits by arithmetic gives what taking the double apart gives. -/
theorem Exact.ofFloat_eq (x : Float) : Exact.ofFloat x = Exact.ofUnpacked x.toModel.unpack := by
  have hm := toNat_unpackMantissa x.toBits.toBitVec
  have he := toNat_unpackExponent x.toBits.toBitVec
  have hs := isNegative_unpackSign x.toBits.toBitVec
  have hbits : x.toBits.toBitVec.toNat = x.toBits.toNat := rfl
  rw [hbits] at hm he hs
  have hall : @unpackExponent binary64 x.toBits.toBitVec = -1#11 ↔
      x.toBits.toNat / 4_503_599_627_370_496 % 2048 = 2047 := by
    rw [← he, ← BitVec.toNat_inj]
    rfl
  have hnone : @unpackExponent binary64 x.toBits.toBitVec = 0#11 ↔
      x.toBits.toNat / 4_503_599_627_370_496 % 2048 = 0 := by
    rw [← he, ← BitVec.toNat_inj]
    rfl
  have hempty : @unpackMantissa binary64 x.toBits.toBitVec = 0#52 ↔
      x.toBits.toNat % 4_503_599_627_370_496 = 0 := by
    rw [← hm, ← BitVec.toNat_inj]
    rfl
  change _ = Exact.ofUnpacked (UnpackedFloat.unpack binary64 x.toBits.toBitVec)
  simp only [Exact.ofFloat, UnpackedFloat.unpack, hall, hnone, hempty]
  split
  · split
    · simp [ofUnpacked, hs]
    · simp [ofUnpacked]
  · split
    · rename_i hexponent
      split
      · rename_i hmantissa
        simp [ofUnpacked, hs, hmantissa]
      · simp [ofUnpacked, hs, hm, he, hexponent, exponentBias]
    · have happend := toNat_one_append (@unpackMantissa binary64 x.toBits.toBitVec)
      simp [ofUnpacked, hs, hm, he, exponentBias, happend]

theorem eq_of_toBits (h : x.toBits.toNat = y.toBits.toNat) : x = y := by
  obtain ⟨⟨a, ha⟩⟩ := x
  obtain ⟨⟨b, hb⟩⟩ := y
  obtain rfl : a = b := UInt64.toNat_inj.mp h
  rfl

/-- A mantissa with fewer than 53 bits belongs to the smallest exponent. -/
theorem bounds_of_finite (h : Exact.ofFloat x = .finite negative m e) :
    m < 2 ^ 52 ∧ e = -1074 ∨ 2 ^ 52 ≤ m ∧ m < 2 ^ 53 := by
  simp only [Exact.ofFloat] at h
  split at h
  · split at h <;> cases h
  · split at h <;> cases h <;> omega

theorem toBits_of_finite (h : Exact.ofFloat x = .finite negative m e) :
    x.toBits.toNat = (if negative then 9_223_372_036_854_775_808 else 0) +
      if m < 4_503_599_627_370_496 then m else (e + 1074).toNat * 4_503_599_627_370_496 + m := by
  have hlt : x.toBits.toNat < 18_446_744_073_709_551_616 := x.toBits.toNat_lt
  simp only [Exact.ofFloat] at h
  split at h
  · split at h <;> cases h
  · split at h <;> cases h <;> simp only [decide_eq_true_eq] <;> split <;> split <;> omega

/-- A finite double is determined by what it stands for. -/
theorem eq_of_finite (hx : Exact.ofFloat x = .finite negative m e)
    (hy : Exact.ofFloat y = .finite negative m e) : x = y :=
  eq_of_toBits ((toBits_of_finite hx).trans (toBits_of_finite hy).symm)

theorem isFinite_iff (x : Float) :
    x.isFinite = true ↔ ∃ negative m e, Exact.ofFloat x = .finite negative m e := by
  change x.toModel.unpack.isFinite = true ↔ _
  rw [Exact.ofFloat_eq]
  cases x.toModel.unpack <;> simp [UnpackedFloat.isFinite, Exact.ofUnpacked]

theorem beq_self_of_isFinite (h : x.isFinite = true) : (x == x) = true := by
  change x.toModel.unpack.isFinite = true at h
  change x.toModel.unpack.beq x.toModel.unpack = true
  cases hx : x.toModel.unpack with
  | notANumber => simp [hx, UnpackedFloat.isFinite] at h
  | infinity s => simp [hx, UnpackedFloat.isFinite] at h
  | zero s => rfl
  | finite s m e hm => cases s <;> simp [UnpackedFloat.beq, UnpackedFloat.compare]

/-- Two doubles stand for zero, and they are equal as numbers. -/
theorem beq_zero_iff (x : Float) :
    (x == 0) = true ↔ ∃ negative, Exact.ofFloat x = .finite negative 0 (-1074) := by
  change x.toModel.unpack.beq (.zero .positive) = true ↔ _
  rw [Exact.ofFloat_eq]
  cases x.toModel.unpack with
  | notANumber => simp [UnpackedFloat.beq, UnpackedFloat.compare, Exact.ofUnpacked]
  | infinity s => cases s <;> simp [UnpackedFloat.beq, UnpackedFloat.compare, Exact.ofUnpacked]
  | zero s => simp [UnpackedFloat.beq, UnpackedFloat.compare, Exact.ofUnpacked]
  | finite s m e hm =>
    have hne : m ≠ 0 := by omega
    cases s <;> simp [UnpackedFloat.beq, UnpackedFloat.compare, Exact.ofUnpacked, hne]

theorem eq_zero_or_of_beq_zero (h : (x == 0) = true) : x = 0 ∨ x = -0 := by
  obtain ⟨negative, hx⟩ := (beq_zero_iff x).mp h
  cases negative with
  | false => exact Or.inl (eq_of_finite hx (by decide))
  | true => exact Or.inr (eq_of_finite hx (by decide))

theorem zero_ne_neg_zero : (0 : Float) ≠ -0 := by
  decide

/-- A zero without its sign; any other number as it is. -/
def unsignedZero (x : Float) : Float :=
  if x == 0 then 0 else x

theorem unsignedZero_eq_self_iff (x : Float) : unsignedZero x = x ↔ x ≠ -0 := by
  rw [unsignedZero]
  split
  · rename_i hzero
    rcases eq_zero_or_of_beq_zero hzero with rfl | rfl
    · exact iff_of_true rfl zero_ne_neg_zero
    · exact iff_of_false zero_ne_neg_zero (not_not_intro rfl)
  · rename_i hne
    refine iff_of_true rfl ?_
    rintro rfl
    exact hne (by decide)

theorem isFinite_unsignedZero {x : Float} (h : x.isFinite = true) :
    (unsignedZero x).isFinite = true := by
  rw [unsignedZero]
  split
  · decide
  · exact h

theorem unsignedZero_ne (x : Float) : unsignedZero x ≠ -0 := by
  rw [unsignedZero]
  split
  · exact zero_ne_neg_zero
  · rename_i hne
    rintro rfl
    exact hne (by decide)

theorem beq_unsignedZero {x : Float} (h : x.isFinite = true) :
    (x == unsignedZero x) = true := by
  rw [unsignedZero]
  split
  · rename_i hzero
    exact hzero
  · exact beq_self_of_isFinite h

end RecordLogic.Number
