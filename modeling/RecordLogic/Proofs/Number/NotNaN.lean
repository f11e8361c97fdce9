import Mathlib
import RecordLogic.Proofs.Number.Decimal

namespace RecordLogic.Number

open Float.Model Float.Model.Format Float.Model.UnpackedFloat

variable {u : UnpackedFloat} {s : Sign} {m : Nat} {e : Int} {x : Float}

/-- Only what is no number is packed as no number; too large exponents make infinities. -/
theorem isNaN_unpack_pack (h : u.isNaN = false) :
    (UnpackedFloat.unpack binary64 (UnpackedFloat.pack binary64 u)).isNaN = false := by
  cases u with
  | notANumber => cases h
  | infinity s => cases s <;> rfl
  | zero s => cases s <;> rfl
  | finite s m e hm =>
    rw [UnpackedFloat.pack]
    simp only
    split
    · cases s <;> rfl
    · rename_i hsmall
      have hexponent {k : Nat} (hk : k + 1 < 2 ^ 11) : BitVec.ofNat 11 k ≠ -1#11 := by
        intro heq
        have hnat := congrArg BitVec.toNat heq
        rw [BitVec.toNat_ofNat, Nat.mod_eq_of_lt (by omega)] at hnat
        simp at hnat
        omega
      split
      · rw [UnpackedFloat.unpack]
        simp only [unpackExponent_packComponents]
        rw [if_neg (hexponent (by omega))]
        split
        · split <;> rfl
        · rfl
      · rw [UnpackedFloat.unpack]
        simp only [unpackExponent_packComponents]
        rw [if_neg (by decide), if_pos trivial]
        split <;> rfl

theorem isNaN_roundWithAccuracy (s : Sign) (m : Nat) (e : Int) (a : Accuracy) :
    (roundWithAccuracy binary64 s m e a).isNaN = false := by
  rw [roundWithAccuracy]
  split
  simp only
  split <;> rfl

theorem isNaN_scaled (h : u.isNaN = false) (hm : 0 < m) :
    (UnpackedFloat.mul binary64 u (.finite s m e hm)).isNaN = false ∧
      (UnpackedFloat.div binary64 u (.finite s m e hm)).isNaN = false := by
  cases u with
  | notANumber => cases h
  | infinity _ => exact ⟨rfl, rfl⟩
  | zero _ => exact ⟨rfl, rfl⟩
  | finite _ _ _ _ => exact ⟨isNaN_roundWithAccuracy _ _ _ _, isNaN_roundWithAccuracy _ _ _ _⟩

theorem isNaN_ofUInt64 (w : UInt64) : w.toFloat.isNaN = false := by
  apply isNaN_unpack_pack
  rw [UnpackedFloat.ofUInt64, UnpackedFloat.ofNat, UnpackedFloat.ofInt, UnpackedFloat.normalize]
  split
  · exact isNaN_roundWithAccuracy _ _ _ _
  · rfl
  · exact isNaN_roundWithAccuracy _ _ _ _

theorem isNaN_unpacked_ofScientific (m : Nat) (e : Int) :
    (UnpackedFloat.ofScientific binary64 m e).isNaN = false := by
  rw [UnpackedFloat.ofScientific]
  split
  · rfl
  split
  · rfl
  split
  · rfl
  split
  · exact (isNaN_scaled (u := .finite _ _ _ _) rfl _).1
  · exact (isNaN_scaled (u := .finite _ _ _ _) rfl _).2

theorem isNaN_ofScientific (m : Nat) (negative : Bool) (e : Nat) :
    (Float.ofScientific m negative e).isNaN = false := by
  rw [Float.ofScientific]
  split
  · rename_i hfast
    have hsize : e < Float.exactlyRepresentablePowersOfTen.size := Nat.lt_succ_of_le hfast.2
    obtain ⟨n, f, hn, hpower, -⟩ := exists_unpack_powerOfTen hsize
    split
    · apply isNaN_unpack_pack
      rw [hpower]
      exact (isNaN_scaled (isNaN_ofUInt64 _) hn).2
    · apply isNaN_unpack_pack
      rw [hpower]
      exact (isNaN_scaled (isNaN_ofUInt64 _) hn).1
  · exact isNaN_unpack_pack (isNaN_unpacked_ofScientific _ _)

theorem isNaN_neg (h : x.isNaN = false) : (-x).isNaN = false := by
  apply isNaN_unpack_pack
  change x.toModel.unpack.isNaN = false at h
  cases hx : x.toModel.unpack with
  | notANumber => rw [hx] at h; cases h
  | _ => rfl

/-- Literals beyond the range of doubles are infinite or zero, none is NaN. -/
theorem isNaN_toFloat (l : Literal) : l.toFloat.isNaN = false := by
  have hmagnitude (m e : Nat) (point : Int) (negative : Bool) :
      (if m = 0 || point < -330 then 0 else if 310 < point then 1 / 0
        else Float.ofScientific m negative e).isNaN = false := by
    split
    · decide
    split
    · decide
    · exact isNaN_ofScientific m negative e
  rw [Literal.toFloat]
  split
  · exact isNaN_neg (hmagnitude _ _ _ _)
  · exact hmagnitude _ _ _ _

end RecordLogic.Number
