import Mathlib
import RecordLogic.Proofs.Number.Whole

namespace RecordLogic.Number

open Float.Model Float.Model.UnpackedFloat

variable {x y : Float} {k l : Nat} {m n : Int}

/-- How two doubles compare; not at all if one of them is no number. -/
def order? (x y : Float) : Option Ordering :=
  x.toModel.unpack.compare y.toModel.unpack

theorem compare_swap (u v : UnpackedFloat) : v.compare u = (u.compare v).map Ordering.swap := by
  rcases u with (_ | _) | _ | _ | ⟨_ | _, m, e, hm⟩ <;>
    rcases v with (_ | _) | _ | _ | ⟨_ | _, n, f, hn⟩
  case finite.negative.finite.negative =>
    simp [UnpackedFloat.compare, Ordering.swap_then, Int.compare_swap, Nat.compare_swap]
  case finite.positive.finite.positive =>
    simp [UnpackedFloat.compare, Ordering.swap_then, Int.compare_swap, Nat.compare_swap]
  all_goals rfl

theorem order?_swap (x y : Float) : order? y x = (order? x y).map Ordering.swap :=
  compare_swap _ _

theorem beq_iff (x y : Float) : (x == y) = true ↔ order? x y = some .eq := by
  change x.toModel.unpack.beq y.toModel.unpack = true ↔ _
  rw [UnpackedFloat.beq, beq_iff_eq]
  rfl

theorem lt_iff (x y : Float) : x < y ↔ order? x y = some .lt := by
  change decide (x.toModel < y.toModel) = true ↔ _
  rw [decide_eq_true_iff]
  change x.toModel.unpack.lt y.toModel.unpack = true ↔ _
  rw [UnpackedFloat.lt, beq_iff_eq]
  rfl

theorem le_iff (x y : Float) : x ≤ y ↔ order? x y = some .lt ∨ order? x y = some .eq := by
  rw [float_le_iff, UnpackedFloat.le]
  change (order? x y).any _ = true ↔ _
  rcases order? x y with _ | _ | _ | _ <;> simp [Ordering.isLE]

theorem le_of_lt (h : x < y) : x ≤ y :=
  (le_iff x y).mpr (Or.inl ((lt_iff x y).mp h))

theorem not_le_of_lt (h : x < y) : ¬y ≤ x := by
  have hswap := order?_swap x y
  rw [(lt_iff x y).mp h] at hswap
  rw [le_iff, hswap]
  decide

theorem not_lt_of_beq (h : (x == y) = true) : ¬x < y := by
  rw [lt_iff, (beq_iff x y).mp h]
  decide

theorem not_nan_of_lt (h : x < y) : x ≠ Float.nan ∧ y ≠ Float.nan := by
  rw [lt_iff] at h
  constructor
  · rintro rfl
    cases h
  · rintro rfl
    rw [order?_swap] at h
    cases h

theorem not_lt_self (x : Float) : ¬x < x := by
  intro h
  exact not_lt_of_beq (Float.beq_self_iff.mpr (not_nan_of_lt h).1) h

/-- Neither number is less than the other. -/
def Unordered (x y : Float) : Prop := ¬x < y ∧ ¬y < x

theorem Unordered.symm (h : Unordered x y) : Unordered y x := ⟨h.2, h.1⟩

theorem unordered_self (x : Float) : Unordered x x := ⟨not_lt_self x, not_lt_self x⟩

theorem unordered_of_beq (h : (x == y) = true) : Unordered x y :=
  ⟨not_lt_of_beq h, not_lt_of_beq (BEq.symm h)⟩

theorem unordered_of_isNaN (h : x.isNaN = true) (y : Float) : Unordered x y := by
  rw [Float.isNaN_eq_decide_eq_nan, decide_eq_true_eq] at h
  exact ⟨fun hlt => (not_nan_of_lt hlt).1 h, fun hlt => (not_nan_of_lt hlt).2 h⟩

/-- Of two numbers the one with more bits is greater, and of two with as many bits the one with the
greater mantissa. -/
theorem compare_parts_of_lt (hk : 0 < k) (h : k < l) :
    (compare ((k.log2 : Int) - 52) (l.log2 - 52)).then
      (compare (fullMantissa k) (fullMantissa l)) = .lt := by
  have hself := Nat.log2_self_le hk.ne'
  have hlog : k.log2 ≤ l.log2 := (Nat.le_log2 (by omega)).mpr (by omega)
  rcases Nat.lt_or_eq_of_le hlog with hless | heq
  · have hexponent : compare ((k.log2 : Int) - 52) (l.log2 - 52) = .lt :=
      Int.compare_eq_lt.mpr (by omega)
    rw [hexponent, Ordering.lt_then]
  · have hmantissa : fullMantissa k < fullMantissa l := by
      rw [fullMantissa, fullMantissa, heq]
      exact Nat.mul_lt_mul_of_pos_right h (Nat.two_pow_pos _)
    rw [heq, Int.compare_eq_eq.mpr rfl, Ordering.eq_then, Nat.compare_eq_lt.mpr hmantissa]

theorem order?_ofInt_of_lt (h : m < n) (hm : m.natAbs < 2 ^ 53) (hn : n.natAbs < 2 ^ 53) :
    order? (Float.ofInt m) (Float.ofInt n) = some .lt := by
  rw [order?]
  cases m with
  | ofNat k =>
    cases n with
    | negSucc l =>
      have hneg := Int.lt_trans h (Int.negSucc_lt_zero l)
      exact absurd hneg (Int.not_lt.mpr (Int.natCast_nonneg k))
    | ofNat l =>
      have hlt : k < l := Int.ofNat_lt.mp h
      have hl : 0 < l := by omega
      rw [Float.ofInt, Float.ofInt, unpack_ofNat hl hn]
      rcases Nat.eq_zero_or_pos k with rfl | hk
      · rw [unpack_ofNat_zero, UnpackedFloat.compare]
      · rw [unpack_ofNat hk hm, UnpackedFloat.compare, compare_parts_of_lt hk hlt]
  | negSucc k =>
    rw [unpack_ofInt_negSucc hm]
    cases n with
    | ofNat l =>
      rw [Float.ofInt]
      rcases Nat.eq_zero_or_pos l with rfl | hl
      · rw [unpack_ofNat_zero, UnpackedFloat.compare]
      · rw [unpack_ofNat hl hn, UnpackedFloat.compare]
    | negSucc l =>
      have hlt := compare_parts_of_lt (k := l + 1) (l := k + 1) (Nat.succ_pos l) (by omega)
      rw [unpack_ofInt_negSucc hn, UnpackedFloat.compare, ← hlt]
      simp [Ordering.swap_then, Int.compare_swap, Nat.compare_swap]

theorem lt_ofInt_iff (hm : m.natAbs < 2 ^ 53) (hn : n.natAbs < 2 ^ 53) :
    Float.ofInt m < Float.ofInt n ↔ m < n := by
  constructor
  · intro h
    rcases Int.lt_trichotomy m n with hlt | rfl | hlt
    · exact hlt
    · exact absurd h (not_lt_self _)
    · have hless := (lt_iff _ _).mpr (order?_ofInt_of_lt hlt hn hm)
      exact absurd (le_of_lt h) (not_le_of_lt hless)
  · intro h
    exact (lt_iff _ _).mpr (order?_ofInt_of_lt h hm hn)

theorem isFinite_ofInt (hm : m.natAbs < 2 ^ 53) : (Float.ofInt m).isFinite = true := by
  by_cases hzero : m = 0
  · rw [hzero]
    decide
  · exact (isFinite_iff _).mpr ⟨_, _, _, exact_ofInt hzero hm⟩

theorem le_ofInt_iff (hm : m.natAbs < 2 ^ 53) (hn : n.natAbs < 2 ^ 53) :
    Float.ofInt m ≤ Float.ofInt n ↔ m ≤ n := by
  constructor
  · intro h
    by_contra hlt
    exact not_le_of_lt ((lt_ofInt_iff hn hm).mpr (by omega)) h
  · intro h
    rcases Int.lt_or_eq_of_le h with hlt | rfl
    · exact le_of_lt ((lt_ofInt_iff hm hn).mpr hlt)
    · exact (le_iff _ _).mpr (Or.inr ((beq_iff _ _).mp (beq_self_of_isFinite (isFinite_ofInt hm))))

end RecordLogic.Number
