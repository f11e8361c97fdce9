import RecordLogic.Proofs.Number.Parts

namespace RecordLogic.Number

open Float.Model Float.Model.Format Float.Model.UnpackedFloat

variable {s : Sign} {k m j : Nat} {e : Int} {x y : Float} {negative : Bool}

theorem repeat_shiftRightOne (m j : Nat) :
    j.repeat ExtendedMantissa.shiftRightOne ⟨m * 2 ^ j, false, false⟩ = ⟨m, false, false⟩ := by
  induction j generalizing m with
  | zero => simp [Nat.repeat]
  | succ j ih =>
    have hpow : m * 2 ^ (j + 1) = m * 2 * 2 ^ j := by ring
    rw [Nat.repeat, hpow, ih]
    simp [ExtendedMantissa.shiftRightOne]

theorem log2_mul_two_pow (hk : 0 < k) (j : Nat) : (k * 2 ^ j).log2 = k.log2 + j := by
  have hpos := Nat.two_pow_pos j
  rw [Nat.log2_eq_iff (Nat.mul_pos hk hpos).ne']
  constructor
  · rw [Nat.pow_add]
    exact Nat.mul_le_mul_right _ (Nat.log2_self_le hk.ne')
  · rw [Nat.add_right_comm, Nat.pow_add]
    exact Nat.mul_lt_mul_of_pos_right Nat.lt_log2_self hpos

theorem shiftToTargetExponent_of_full (hlow : 2 ^ 52 ≤ m) (hhigh : m < 2 ^ 53)
    (he : -1074 ≤ e + j) :
    shiftToTargetExponent binary64 (m * 2 ^ j) e .exact = (⟨m, false, false⟩, e + j) := by
  have hm : m.log2 = 52 := (Nat.log2_eq_iff (by omega)).mpr ⟨hlow, hhigh⟩
  have hlog : (m * 2 ^ j).log2 = m.log2 + j := log2_mul_two_pow (by omega) j
  have htarget : (binary64.targetExponent (totalExponent (m * 2 ^ j) e) - e).toNat = j := by
    simp only [targetExponent, totalExponent, mantissaBits, minExponent, hlog]
    omega
  simp only [shiftToTargetExponent, shiftToExponent, htarget]
  rw [Prod.mk.injEq]
  exact ⟨repeat_shiftRightOne m j, rfl⟩

theorem roundWithAccuracy_of_full (hpos : 0 < m) (hlow : 2 ^ 52 ≤ m) (hhigh : m < 2 ^ 53)
    (he : -1074 ≤ e + j) :
    roundWithAccuracy binary64 s (m * 2 ^ j) e .exact = .finite s m (e + j) hpos := by
  have hsecond := shiftToTargetExponent_of_full (j := 0) (e := e + j) hlow hhigh (by omega)
  rw [Nat.pow_zero, Nat.mul_one] at hsecond
  rw [roundWithAccuracy, shiftToTargetExponent_of_full hlow hhigh he]
  simp only [ExtendedMantissa.roundedMantissa, ExtendedMantissa.accuracy,
    Accuracy.roundToNearestEven, hsecond, dif_neg hpos.ne']
  simp

/-- The mantissa with all 53 bits of a number that 53 bits hold. -/
def fullMantissa (k : Nat) : Nat := k * 2 ^ (52 - k.log2)

theorem fullMantissa_pos (hk : 0 < k) : 0 < fullMantissa k :=
  Nat.mul_pos hk (Nat.two_pow_pos _)

theorem log2_lt_of_lt (hk : 0 < k) (hlt : k < 2 ^ 53) : k.log2 < 53 :=
  (Nat.log2_lt hk.ne').mpr hlt

theorem fullMantissa_bounds (hk : 0 < k) (hlt : k < 2 ^ 53) :
    2 ^ 52 ≤ fullMantissa k ∧ fullMantissa k < 2 ^ 53 := by
  have hlog := log2_lt_of_lt hk hlt
  rw [← Nat.log2_eq_iff (fullMantissa_pos hk).ne', fullMantissa, log2_mul_two_pow hk]
  omega

theorem round_ofNat (hk : 0 < k) (hlt : k < 2 ^ 53) :
    UnpackedFloat.round binary64 s k 0 =
      .finite s (fullMantissa k) (k.log2 - 52) (fullMantissa_pos hk) := by
  obtain ⟨hlow, hhigh⟩ := fullMantissa_bounds hk hlt
  have hlog := log2_lt_of_lt hk hlt
  have htarget : binary64.targetExponent (totalExponent k 0) = k.log2 - 52 := by
    simp only [targetExponent, totalExponent, mantissaBits, minExponent]
    omega
  have hshift : (0 - ((k.log2 : Int) - 52)).toNat = 52 - k.log2 := by omega
  have hexponent : 0 - ((52 - k.log2 : Nat) : Int) = k.log2 - 52 := by omega
  have hround := roundWithAccuracy_of_full (s := s) (j := 0) (e := k.log2 - 52)
    (fullMantissa_pos hk) hlow hhigh (by omega)
  simp only [UnpackedFloat.round, decreaseExponent, htarget, hshift, Nat.shiftLeft_eq, hexponent]
  simpa [fullMantissa] using hround

theorem mul_one_of_full (hpos : 0 < m) (hlow : 2 ^ 52 ≤ m) (hhigh : m < 2 ^ 53) (he : -1074 ≤ e) :
    UnpackedFloat.mul binary64 (.finite .positive m e hpos)
      (.finite .positive (2 ^ 52) (-52) (by decide)) = .finite .positive m e hpos := by
  have hexponent : e + -52 + (52 : Nat) = e := by omega
  have hround := roundWithAccuracy_of_full (s := .positive) (j := 52) (e := e + -52) hpos hlow
    hhigh (by omega)
  simp only [hexponent] at hround
  rw [UnpackedFloat.mul]
  exact hround

theorem unpack_toFloat (hk : 0 < k) (hlt : k < 2 ^ 53) : k.toUInt64.toFloat.toModel.unpack =
    .finite .positive (fullMantissa k) (k.log2 - 52) (fullMantissa_pos hk) := by
  obtain ⟨hlow, hhigh⟩ := fullMantissa_bounds hk hlt
  have hlog := log2_lt_of_lt hk hlt
  have hword : UnpackedFloat.ofUInt64 binary64 k.toUInt64 =
      .finite .positive (fullMantissa k) (k.log2 - 52) (fullMantissa_pos hk) := by
    have htoNat : k.toUInt64.toNat = k := by
      rw [Nat.toUInt64_eq, UInt64.toNat_ofNat_of_lt']
      exact Nat.lt_trans hlt (by decide)
    have hsign : compare (k : Int) 0 = .gt := by
      rw [Int.compare_eq_gt]
      omega
    rw [UnpackedFloat.ofUInt64, UnpackedFloat.ofNat, UnpackedFloat.ofInt, htoNat,
      UnpackedFloat.normalize, hsign]
    exact round_ofNat hk hlt
  change UnpackedFloat.unpack binary64 (UnpackedFloat.pack binary64
    (UnpackedFloat.ofUInt64 binary64 k.toUInt64)) = _
  rw [hword]
  exact unpack_pack_finite (fullMantissa_pos hk) hlow hhigh (by omega) (by omega)

theorem unpack_ofNat (hk : 0 < k) (hlt : k < 2 ^ 53) :
    (Float.ofNat k).toModel.unpack =
      .finite .positive (fullMantissa k) (k.log2 - 52) (fullMantissa_pos hk) := by
  obtain ⟨hlow, hhigh⟩ := fullMantissa_bounds hk hlt
  have hlog := log2_lt_of_lt hk hlt
  have hmul := mul_one_of_full (e := k.log2 - 52) (fullMantissa_pos hk) hlow hhigh (by omega)
  change (Float.ofScientific k false 0).toModel.unpack = _
  rw [Float.ofScientific, dif_pos ⟨hlt, by decide⟩]
  change UnpackedFloat.unpack binary64 (UnpackedFloat.pack binary64 (UnpackedFloat.mul binary64
    k.toUInt64.toFloat.toModel.unpack
    Float.exactlyRepresentablePowersOfTen[0].toModel.unpack)) = _
  rw [unpack_toFloat hk hlt, unpack_one, hmul]
  exact unpack_pack_finite (fullMantissa_pos hk) hlow hhigh (by omega) (by omega)

theorem unpack_ofInt_negSucc (hlt : k + 1 < 2 ^ 53) :
    (Float.ofInt (.negSucc k)).toModel.unpack =
      .finite .negative (fullMantissa (k + 1)) ((k + 1).log2 - 52)
        (fullMantissa_pos (Nat.succ_pos k)) := by
  obtain ⟨hlow, hhigh⟩ := fullMantissa_bounds (Nat.succ_pos k) hlt
  have hlog := log2_lt_of_lt (Nat.succ_pos k) hlt
  change UnpackedFloat.unpack binary64
      (UnpackedFloat.pack binary64 (Float.ofNat k.succ).toModel.unpack.neg) = _
  rw [unpack_ofNat (Nat.succ_pos k) hlt, UnpackedFloat.neg]
  exact unpack_pack_finite (fullMantissa_pos (Nat.succ_pos k)) hlow hhigh (by omega) (by omega)

theorem exact_ofInt {n : Int} (hn : n ≠ 0) (hlt : n.natAbs < 2 ^ 53) :
    Exact.ofFloat (Float.ofInt n) =
      .finite (n < 0) (fullMantissa n.natAbs) (n.natAbs.log2 - 52) := by
  rw [Exact.ofFloat_eq]
  cases n with
  | ofNat k =>
    have hk : 0 < k := Nat.pos_of_ne_zero fun h => hn (h ▸ rfl)
    have hunpack := unpack_ofNat hk hlt
    rw [Float.ofInt, hunpack]
    rfl
  | negSucc k =>
    have hnegative : decide (Int.negSucc k < 0) = true := decide_eq_true (Int.negSucc_lt_zero k)
    rw [unpack_ofInt_negSucc hlt, hnegative]
    rfl

theorem wholePart_scaled (h : isWhole m e = true) :
    m * 2 ^ e.toNat = wholePart m e * 2 ^ (-e).toNat := by
  rw [wholePart]
  by_cases he : 0 ≤ e
  · rw [if_pos he, Int.toNat_of_nonpos (show -e ≤ 0 by omega), Nat.pow_zero, Nat.mul_one]
    rfl
  · have hdvd : 2 ^ (-e).toNat ∣ m := by
      apply Nat.dvd_of_mod_eq_zero
      simpa [isWhole, he] using h
    rw [if_neg he, Int.toNat_of_nonpos (show e ≤ 0 by omega), Nat.pow_zero, Nat.mul_one]
    exact (Nat.div_mul_cancel hdvd).symm

theorem eq_zero_of_wholePart (h : isWhole m e = true) (hzero : wholePart m e = 0) : m = 0 := by
  have hscaled := wholePart_scaled h
  rw [hzero, Nat.zero_mul] at hscaled
  exact (Nat.mul_eq_zero.mp hscaled).resolve_right (Nat.two_pow_pos _).ne'

/-- The parts of a double that stands for a whole number are those that the number is given. -/
theorem eq_fullMantissa (h : Exact.ofFloat x = .finite negative m e) (hw : isWhole m e = true)
    (hpos : 0 < wholePart m e) (hlt : wholePart m e < 2 ^ 53) :
    m = fullMantissa (wholePart m e) ∧ e = (wholePart m e).log2 - 52 := by
  have hscaled := wholePart_scaled hw
  have hm : 0 < m := by
    by_contra hzero
    obtain rfl : m = 0 := by omega
    rw [Nat.zero_mul] at hscaled
    have hmul := Nat.mul_pos hpos (Nat.two_pow_pos (-e).toNat)
    omega
  have hlogs : m.log2 + e.toNat = (wholePart m e).log2 + (-e).toNat := by
    rw [← log2_mul_two_pow hm, ← log2_mul_two_pow hpos, hscaled]
  have hlog := log2_lt_of_lt hpos hlt
  rcases bounds_of_finite h with ⟨hsmall, rfl⟩ | ⟨hlow, hhigh⟩
  · have hlogm : m.log2 < 52 := (Nat.log2_lt hm.ne').mpr hsmall
    omega
  · have hlogm : m.log2 = 52 := (Nat.log2_eq_iff hm.ne').mpr ⟨hlow, hhigh⟩
    have he : e = (wholePart m e).log2 - 52 := by omega
    have hup : e.toNat = 0 := by omega
    have hdown : (-e).toNat = 52 - (wholePart m e).log2 := by omega
    rw [hup, hdown, Nat.pow_zero, Nat.mul_one] at hscaled
    exact ⟨hscaled, he⟩

theorem exists_of_whole? {n : Int} (h : whole? x = some n) :
    ∃ negative m e, Exact.ofFloat x = .finite negative m e ∧ isWhole m e = true ∧
      n = if negative then -(wholePart m e : Int) else wholePart m e := by
  rw [whole?] at h
  split at h
  · rename_i negative m e hx
    split at h
    · rename_i hw
      exact ⟨negative, m, e, hx, hw, (Option.some.inj h).symm⟩
    · cases h
  · cases h

theorem whole?_of_beq_zero (h : (x == 0) = true) : whole? x = some 0 := by
  obtain ⟨negative, hx⟩ := (beq_zero_iff x).mp h
  have hw : isWhole 0 (-1074) = true := by
    rw [isWhole, Nat.zero_mod, decide_eq_true rfl, Bool.or_true]
  have hzero : wholePart 0 (-1074) = 0 := by rw [wholePart, if_neg (by decide), Nat.zero_div]
  simp only [whole?, hx, hw, hzero]
  cases negative <;> rfl

theorem isFinite_of_whole? {n : Int} (h : whole? x = some n) : x.isFinite = true := by
  obtain ⟨negative, m, e, hx, -⟩ := exists_of_whole? h
  exact (isFinite_iff x).mpr ⟨negative, m, e, hx⟩

/-- A whole number of at most 53 bits survives as a double, but for the sign of zero. -/
theorem ofInt_of_whole? {n : Int} (h : whole? x = some n) (hlt : n.natAbs < 2 ^ 53) :
    Float.ofInt n = unsignedZero x := by
  rw [unsignedZero]
  obtain ⟨negative, m, e, hx, hw, hn⟩ := exists_of_whole? h
  rcases Nat.eq_zero_or_pos (wholePart m e) with hzero | hpos
  · obtain rfl := eq_zero_of_wholePart hw hzero
    obtain rfl : e = -1074 := by
      have hbounds := bounds_of_finite hx
      omega
    obtain rfl : n = 0 := by simpa [hzero] using hn
    rw [if_pos ((beq_zero_iff x).mpr ⟨negative, hx⟩)]
    rfl
  · have hsize : n.natAbs = wholePart m e := by split at hn <;> omega
    have hsign : decide (n < 0) = negative := by
      cases negative <;> simp at hn ⊢ <;> omega
    obtain ⟨hm, he⟩ := eq_fullMantissa hx hw hpos (hsize ▸ hlt)
    have hne : ¬(x == 0) = true := by
      intro hbeq
      obtain ⟨other, hother⟩ := (beq_zero_iff x).mp hbeq
      rw [hx, Exact.finite.injEq] at hother
      have hfull := fullMantissa_pos hpos
      omega
    rw [if_neg hne]
    have hof := exact_ofInt (n := n) (by omega) hlt
    rw [hsize, hsign, ← hm, ← he] at hof
    exact eq_of_finite hof hx

end RecordLogic.Number
