import Mathlib
import RecordLogic.Proofs.Number.RoundTrip

namespace RecordLogic.Number

open Float.Model Float.Model.Format Float.Model.UnpackedFloat

variable {x : Float} {negative : Bool} {k m r : Nat} {e t n : Int}

theorem truncate?_of_finite (h : Exact.ofFloat x = .finite negative m e) :
    truncate? x = some (if negative then -(wholePart m e : Int) else wholePart m e) := by
  rw [truncate?, h]

theorem truncate?_neg (x : Float) : truncate? (-x) = (truncate? x).map (- ·) := by
  cases hx : Exact.ofFloat x with
  | nan =>
    obtain rfl := eq_nan_of_exact hx
    decide
  | infinite negative =>
    cases negative with
    | false =>
      obtain rfl : x = infinity := eq_of_infinite hx (by decide)
      decide
    | true =>
      obtain rfl : x = -infinity := eq_of_infinite hx (by decide)
      decide
  | finite negative m e =>
    rw [truncate?_of_finite hx, truncate?_of_finite (exact_neg hx)]
    cases negative <;> simp

theorem wholePart_fullMantissa (hk : 0 < k) (hlt : k < 2 ^ 53) :
    wholePart (fullMantissa k) (k.log2 - 52) = k := by
  have hlog := log2_lt_of_lt hk hlt
  rw [wholePart, fullMantissa]
  by_cases he : (0 : Int) ≤ k.log2 - 52
  · have hup : ((k.log2 : Int) - 52).toNat = 0 := by omega
    have hfull : 52 - k.log2 = 0 := by omega
    rw [if_pos he, hup, hfull]
    simp
  · have hdown : (-((k.log2 : Int) - 52)).toNat = 52 - k.log2 := by omega
    rw [if_neg he, hdown]
    exact Nat.mul_div_cancel k (Nat.two_pow_pos _)

theorem truncate?_ofNat (hlt : k < 2 ^ 53) : truncate? (Float.ofNat k) = some k := by
  rcases Nat.eq_zero_or_pos k with rfl | hk
  · have hexact : Exact.ofFloat (Float.ofNat 0) = .finite false 0 (-1074) := by decide
    rw [truncate?_of_finite hexact, wholePart, if_neg (by decide), Nat.zero_div]
    rfl
  · have hexact :
        Exact.ofFloat (Float.ofNat k) = .finite false (fullMantissa k) (k.log2 - 52) := by
      rw [Exact.ofFloat_eq, unpack_ofNat hk hlt]
      rfl
    rw [truncate?_of_finite hexact, wholePart_fullMantissa hk hlt]
    rfl

/-- A number of more than 53 bits keeps 53 of them, and the last one counts at least two. -/
theorem Rounded.carry_large (h : Rounded k r t) (hk : 2 ^ 53 ≤ k) :
    2 ^ 52 ≤ (carry r t).1 ∧ (carry r t).1 < 2 ^ 53 ∧ 1 ≤ (carry r t).2 := by
  have hcast : (2 ^ 53 : ℚ) ≤ k := by exact_mod_cast hk
  have hunit : (1 : ℚ) < 2 ^ t := by
    have hhigh := h.high
    linarith
  have ht : 0 < t := (one_lt_zpow_iff_right₀ one_lt_two).mp hunit
  have hlow : 2 ^ 52 ≤ r := h.full.resolve_right (by omega)
  have hle := h.le
  rw [carry]
  split
  · exact ⟨by norm_num, by norm_num, by simp only; omega⟩
  · exact ⟨hlow, by simp only; omega, by simp only; omega⟩

/-- Rounding does not take a number below `2 ^ 53`. -/
theorem le_of_truncate?_ofNat (hk : 2 ^ 53 ≤ k) (h : truncate? (Float.ofNat k) = some n) :
    2 ^ 53 ≤ n := by
  have hvalue : ((k * 2 ^ 53 : Nat) : ℚ) * 2 ^ (-53 : Int) = k := by
    rw [Nat.cast_mul, mul_assoc]
    norm_num
  have hdescribes := describes_exact (k * 2 ^ 53) (2 ^ (-53 : Int))
  rw [hvalue] at hdescribes
  obtain ⟨r, t, hround, hparts⟩ :=
    exists_rounded .positive hdescribes (Or.inl (by omega))
  obtain ⟨hlow, hhigh, he⟩ := hround.carry_large hk
  have hexact : Exact.ofFloat (Float.ofNat k) = Exact.ofUnpacked (UnpackedFloat.unpack binary64
      (UnpackedFloat.pack binary64 (ofParts .positive (carry r t).1 (carry r t).2))) := by
    rw [Exact.ofFloat_eq, unpack_ofNat_of_le hk, hparts]
  generalize (carry r t).1 = m at hlow hhigh hexact
  generalize (carry r t).2 = e at he hexact
  by_cases hmax : e ≤ 971
  · rw [exact_pack .positive ⟨hhigh, by omega, hmax, Or.inl hlow⟩] at hexact
    rw [truncate?_of_finite hexact] at h
    have hpow : 2 ^ 1 ≤ 2 ^ e.toNat := Nat.pow_le_pow_right two_pos (by omega)
    have hwhole : 2 ^ 53 ≤ wholePart m e := by
      rw [wholePart, if_pos (by omega)]
      calc 2 ^ 53
        _ = 2 ^ 52 * 2 ^ 1 := by norm_num
        _ ≤ m * 2 ^ e.toNat := Nat.mul_le_mul hlow hpow
    simp only [isNegative, Bool.false_eq_true, if_false, Option.some.injEq] at h
    omega
  · rw [ofParts_of_pos _ (show 0 < m by omega), unpack_pack_large _ (by omega)] at hexact
    rw [truncate?, hexact] at h
    cases h

/-- The double of a whole number has it as its whole part, unless both are large. -/
theorem truncate?_ofInt (n : Int) : truncate? (Float.ofInt n) = some n ∨
    2 ^ 53 ≤ n.natAbs ∧ ∀ k, truncate? (Float.ofInt n) = some k → 2 ^ 53 ≤ k.natAbs := by
  cases n with
  | ofNat k =>
    rw [Float.ofInt]
    rcases Nat.lt_or_ge k (2 ^ 53) with hlt | hle
    · exact Or.inl (truncate?_ofNat hlt)
    · refine Or.inr ⟨hle, fun j hj => ?_⟩
      have hlarge := le_of_truncate?_ofNat hle hj
      omega
  | negSucc k =>
    have hneg : Float.ofInt (.negSucc k) = -Float.ofNat k.succ := rfl
    rw [hneg, truncate?_neg]
    rcases Nat.lt_or_ge k.succ (2 ^ 53) with hlt | hle
    · left
      rw [truncate?_ofNat hlt]
      rfl
    · refine Or.inr ⟨hle, fun j hj => ?_⟩
      obtain ⟨i, hi, rfl⟩ := Option.map_eq_some_iff.mp hj
      have hlarge := le_of_truncate?_ofNat hle hi
      omega

/-- What is not defined from `2 ^ 53` on does not see that larger numbers are rounded. -/
theorem bind_truncate?_ofInt {α : Type} {f : Int → Option α}
    (hf : ∀ k : Int, 2 ^ 53 ≤ k.natAbs → f k = none) (n : Int) :
    (truncate? (Float.ofInt n)).bind f = f n := by
  rcases truncate?_ofInt n with hsame | ⟨hlarge, hall⟩
  · rw [hsame, Option.bind_some]
  · rw [hf n hlarge, Option.bind_eq_none_iff]
    intro k hk
    exact hf k (hall k hk)

theorem ofInt_inj {a b : Int} (ha : a.natAbs < 2 ^ 53) :
    Float.ofInt a = Float.ofInt b ↔ a = b := by
  constructor
  · intro h
    have hown : truncate? (Float.ofInt a) = some a :=
      (truncate?_ofInt a).resolve_right fun hlarge => absurd hlarge.1 (by omega)
    rcases truncate?_ofInt b with hb | ⟨-, hlarge⟩
    · exact Option.some.inj (hown.symm.trans (h ▸ hb))
    · have hle := hlarge a (h ▸ hown)
      omega
  · rintro rfl
    rfl

end RecordLogic.Number
