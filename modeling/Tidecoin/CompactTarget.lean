import Tidecoin.Lib.Rounding
import Tidecoin.Chain
import Mathlib.Data.Nat.Bitwise

/-!
The compact encoding of targets rounds a number down to one with a mantissa of 23 bits, and the work
of a block is the quotient the source computes without the 257th bit.
-/

namespace Tidecoin

open Lib

namespace ArithUint256

/-- The encoding raises neither flag. -/
def Compact.Unflagged (compact : Compact) : Prop :=
  compact.fNegative = false ∧ compact.fOverflow = false

/-- The values of the encodings that raise no flag. -/
def Representable (value : ArithUint256) : Prop :=
  ∃ nCompact, (setCompactFlags nCompact).Unflagged ∧ setCompact nCompact = value

/-- What is left of a number after it was encoded and decoded. -/
def compactRound (x : ArithUint256) : ArithUint256 := setCompact (getCompact x)

/-- The two parts of an encoding. -/
abbrev sizeOf (nCompact : UInt32) : Nat := nCompact.toNat >>> 24

abbrev mantissaOf (nCompact : UInt32) : Nat := nCompact.toNat &&& 0x007fffff

lemma mantissaOf_lt (nCompact : UInt32) : mantissaOf nCompact < 2 ^ 15 * 256 :=
  lt_of_le_of_lt Nat.and_le_right (by decide)

lemma shift_eq_pow (s : Nat) : 2 ^ (8 * s) = 256 ^ s := Nat.pow_mul 2 8 s

lemma and_sign_bit (n : Nat) : n &&& 0x00800000 = n / 2 ^ 23 % 2 * 2 ^ 23 := by
  rw [← Nat.toNat_testBit]
  exact Nat.and_two_pow n 23

section

variable {nCompact : UInt32}

/-- What raises no overflow flag is not cut off. -/
lemma fits_of_not_overflow (hflag : (setCompactFlags nCompact).fOverflow = false) :
    mantissaOf nCompact * 256 ^ (sizeOf nCompact - 3) < 2 ^ 256 := by
  have hm := mantissaOf_lt nCompact
  have hpow : ∀ t, sizeOf nCompact - 3 ≤ t →
      mantissaOf nCompact * 256 ^ (sizeOf nCompact - 3) ≤ mantissaOf nCompact * 256 ^ t :=
        fun t ht =>
    Nat.mul_le_mul_left _ (Nat.pow_le_pow_right (by decide) ht)
  by_cases h32 : sizeOf nCompact ≤ 32
  · exact (hpow 29 (by omega)).trans_lt (by omega)
  have hlarge : ¬sizeOf nCompact ≤ 3 := by omega
  simp only [setCompactFlags, if_neg hlarge, Bool.and_eq_false_iff, Bool.or_eq_false_iff,
    decide_eq_false_iff_not, ne_eq, not_not, not_lt, gt_iff_lt] at hflag
  unfold mantissaOf sizeOf at *
  rcases hflag with hzero | ⟨⟨hsize, hbyte⟩, hword⟩
  · rw [hzero, Nat.zero_mul]
    decide
  · by_cases h33 : nCompact.toNat >>> 24 ≤ 33
    · exact (hpow 30 (by omega)).trans_lt (by omega)
    · exact (hpow 31 (by omega)).trans_lt (by omega)

lemma toNat_setCompact (hflag : (setCompactFlags nCompact).fOverflow = false) :
    (setCompact nCompact).toNat =
    mantissaOf nCompact / 256 ^ (3 - sizeOf nCompact) * 256 ^ (sizeOf nCompact - 3) := by
  have hfit := fits_of_not_overflow hflag
  have hm : mantissaOf nCompact < 2 ^ 256 := (mantissaOf_lt nCompact).trans (by decide)
  by_cases hs : sizeOf nCompact ≤ 3
  · simp only [setCompact, setCompactFlags, if_pos hs]
    rw [BitVec.toNat_ofNat, Nat.shiftRight_eq_div_pow, shift_eq_pow, Nat.sub_eq_zero_of_le hs,
      Nat.pow_zero,
      Nat.mul_one, Nat.mod_eq_of_lt ((Nat.div_le_self _ _).trans_lt hm)]
  · simp only [setCompact, setCompactFlags, if_neg hs]
    rw [BitVec.toNat_shiftLeft, BitVec.toNat_ofNat, Nat.mod_eq_of_lt hm, Nat.shiftLeft_eq,
      shift_eq_pow,
      Nat.mod_eq_of_lt hfit, Nat.sub_eq_zero_of_le (not_le.1 hs).le, Nat.pow_zero, Nat.div_one]

end

section

variable (x : ArithUint256)

/-- The size in bytes. -/
lemma bits_bounds : x.toNat < 256 ^ ((bits x + 7) / 8) ∧ (bits x + 7) / 8 ≤ 32 ∧
    ((bits x + 7) / 8 ≠ 0 → 256 ^ ((bits x + 7) / 8) ≤ 256 * x.toNat) := by
  unfold bits
  split
  next hzero =>
    rw [hzero]
    decide
  next hpos =>
    have hlog : x.toNat.log2 < 256 := (Nat.log2_lt hpos).2 x.isLt
    generalize hs : (x.toNat.log2 + 1 + 7) / 8 = s
    obtain ⟨s, rfl⟩ : ∃ t, s = t + 1 := ⟨s - 1, by omega⟩
    refine ⟨?_, by omega, fun _ => ?_⟩
    · rw [← shift_eq_pow]
      exact Nat.lt_log2_self.trans_le (Nat.pow_le_pow_right (by decide) (by omega))
    · rw [Nat.pow_succ', ← shift_eq_pow]
      refine Nat.mul_le_mul_left _ (le_trans ?_ (Nat.log2_self_le hpos))
      exact Nat.pow_le_pow_right (by decide) (by omega)

/-- The three leading bytes. -/
lemma leading_eq {s : Nat} (hlt : x.toNat < 256 ^ s) :
    (if s ≤ 3 then (getLow64 x <<< (8 * (3 - s))) % 2 ^ 32
      else getLow64 (x >>> (8 * (s - 3))) % 2 ^ 32) = x.toNat * 256 ^ 3 / 256 ^ s ∧
    x.toNat * 256 ^ 3 / 256 ^ s < 2 ^ 24 := by
  have hshort : x.toNat * 256 ^ 3 / 256 ^ s < 2 ^ 24 := by
    rw [Nat.div_lt_iff_lt_mul (Nat.pow_pos (by decide)), Nat.mul_comm]
    exact Nat.mul_lt_mul_of_pos_left hlt (by decide)
  refine ⟨?_, hshort⟩
  split
  next hs =>
    have hpos : 0 < 256 ^ (3 - s) := Nat.pow_pos (by decide)
    have hx := Nat.le_mul_of_pos_right x.toNat hpos
    rw [← Nat.pow_sub_mul_pow 256 hs, ← Nat.mul_assoc,
      Nat.mul_div_cancel _ (Nat.pow_pos (by decide))]
      at hshort ⊢
    have hlow : x.toNat % 2 ^ 64 = x.toNat := Nat.mod_eq_of_lt (by omega)
    rw [getLow64, hlow, Nat.shiftLeft_eq, shift_eq_pow, Nat.mod_eq_of_lt (by omega)]
  next hs =>
    rw [← Nat.pow_sub_mul_pow 256 (not_le.1 hs).le, Nat.mul_div_mul_right _ _ (by decide)]
      at hshort ⊢
    have hlow : x.toNat / 256 ^ (s - 3) % 2 ^ 64 = x.toNat / 256 ^ (s - 3) :=
      Nat.mod_eq_of_lt (by omega)
    rw [getLow64, BitVec.toNat_ushiftRight, Nat.shiftRight_eq_div_pow, shift_eq_pow, hlow,
      Nat.mod_eq_of_lt (by omega)]

lemma parts_of_or {s m : Nat} (hs : s ≤ 33) (hm : m < 2 ^ 23) :
    sizeOf (UInt32.ofNat (m ||| s <<< 24)) = s ∧
    mantissaOf (UInt32.ofNat (m ||| s <<< 24)) = m ∧
    (UInt32.ofNat (m ||| s <<< 24)).toNat &&& 0x00800000 = 0 := by
  have hsum : (UInt32.ofNat (m ||| s <<< 24)).toNat = s * 2 ^ 24 + m := by
    rw [Nat.or_comm, ← Nat.shiftLeft_add_eq_or_of_lt (by omega), Nat.shiftLeft_eq,
      UInt32.toNat_ofNat',
      Nat.mod_eq_of_lt (by omega)]
  rw [sizeOf, mantissaOf, hsum, Nat.shiftRight_eq_div_pow, and_sign_bit]
  refine ⟨by omega, ?_, by omega⟩
  exact (Nat.and_two_pow_sub_one_eq_mod _ 23).trans (by omega)

/-- The size and the mantissa of the encoding. -/
lemma getCompact_spec : ∃ s, sizeOf (getCompact x) = s ∧ s ≤ 33 ∧
    mantissaOf (getCompact x) = x.toNat * 256 ^ 3 / 256 ^ s ∧
      (getCompact x).toNat &&& 0x00800000 = 0 ∧
    (s = 33 → mantissaOf (getCompact x) < 2 ^ 16) ∧
      (s ≠ 0 → 2 ^ 15 * 256 ^ s ≤ x.toNat * 256 ^ 3) := by
  obtain ⟨hlt, hsize, hlow⟩ := bits_bounds x
  obtain ⟨hleading, hshort⟩ := leading_eq x hlt
  have hsign : ∀ n < 2 ^ 24, n &&& 0x00800000 ≠ 0 ↔ 2 ^ 23 ≤ n := by
    intro n hn
    rw [and_sign_bit]
    omega
  unfold getCompact
  simp only [hleading, hsign _ hshort]
  generalize (bits x + 7) / 8 = s at *
  split
  next hset =>
    -- The mantissa would reach the sign bit, so it loses a byte.
    have hdrop : x.toNat * 256 ^ 3 / 256 ^ s / 256 = x.toNat * 256 ^ 3 / 256 ^ (s + 1) := by
      rw [Nat.div_div_eq_div_mul, Nat.pow_succ 256 s]
    rw [Nat.shiftRight_eq_div_pow, hdrop]
    obtain ⟨hs, hm, hclear⟩ :=
      parts_of_or (s := s + 1) (m := x.toNat * 256 ^ 3 / 256 ^ (s + 1)) (by omega)
      (by omega)
    refine ⟨s + 1, hs, by omega, hm, hclear, fun _ => by omega, fun _ => ?_⟩
    rw [Nat.le_div_iff_mul_le (Nat.pow_pos (by decide))] at hset
    omega
  next hunset =>
    obtain ⟨hs, hm, hclear⟩ := parts_of_or (hsize.trans (by decide)) (not_le.1 hunset)
    refine ⟨s, hs, by omega, hm, hclear, fun hs => by omega, fun hs => ?_⟩
    have hbyte := hlow hs
    omega

/-- Encoding and decoding drops low bytes and raises no flag. -/
lemma compactRound_eq : (setCompactFlags (getCompact x)).Unflagged ∧ ∃ k,
    (compactRound x).toNat = x.toNat / 256 ^ k * 256 ^ k ∧ (k ≠ 0 → 2 ^ 15 * 256 ^ k ≤ x.toNat) ∧
      x.toNat / 256 ^ k < 2 ^ 15 * 256 := by
  obtain ⟨s, hs, hle, hm, hsign, htop, hlow⟩ := getCompact_spec x
  have hunflagged : (setCompactFlags (getCompact x)).Unflagged := by
    constructor
    · simp [setCompactFlags, hsign]
    · simp only [setCompactFlags, hs]
      by_cases h33 : s = 33
      · have hword := Nat.le_of_lt_succ (htop h33)
        simpa [h33] using fun _ => hword
      · simp [show ¬32 < s by omega, show ¬33 < s by omega, show ¬34 < s by omega]
  have hscale : x.toNat * 256 ^ 3 / 256 ^ s / 256 ^ (3 - s) = x.toNat / 256 ^ (s - 3) := by
    have hpow : 256 ^ s * 256 ^ (3 - s) = 256 ^ 3 * 256 ^ (s - 3) := by
      rw [← Nat.pow_add, ← Nat.pow_add, show s + (3 - s) = 3 + (s - 3) by omega]
    rw [Nat.div_div_eq_div_mul, hpow, Nat.mul_comm, Nat.mul_div_mul_left _ _ (by decide)]
  refine ⟨hunflagged, s - 3, ?_, fun hk => ?_, ?_⟩
  · rw [compactRound, toNat_setCompact hunflagged.2, hs, hm, hscale]
  · have hfull := hlow (by omega)
    rw [← Nat.pow_sub_mul_pow 256 (show 3 ≤ s by omega), ← Nat.mul_assoc] at hfull
    exact Nat.le_of_mul_le_mul_right hfull (by decide)
  · rw [← hscale, ← hm]
    exact (Nat.div_le_self _ _).trans_lt (mantissaOf_lt _)

end

/-- Decoding the encoding of a number gives the largest representable one that is not above it. -/
lemma isGreatest_compactRound (x : ArithUint256) : Representable (compactRound x) ∧
    (compactRound x).toNat ≤ x.toNat ∧
    ∀ value, Representable value → value.toNat ≤ x.toNat →
      value.toNat ≤ (compactRound x).toNat := by
  obtain ⟨hunflagged, k, hround, hlow, hshort⟩ := compactRound_eq x
  have hgreatest := isGreatest_dropDigits (by decide) hlow hshort
  rw [← hround] at hgreatest
  refine ⟨⟨_, hunflagged, rfl⟩, hgreatest.1.2, ?_⟩
  rintro value ⟨nCompact, hflags, rfl⟩ hle
  refine hgreatest.2 ⟨?_, hle⟩
  rw [toNat_setCompact hflags.2]
  exact ⟨_, _, (Nat.div_le_self _ _).trans_lt (mantissaOf_lt nCompact), rfl⟩

end ArithUint256

open ArithUint256

/-- The work of a target is the quotient with the 257-bit dividend. -/
lemma toNat_getBlockProof {nBits : UInt32} (hflags : (setCompactFlags nBits).Unflagged)
    (htarget : setCompact nBits ≠ 0) :
    (getBlockProof nBits).toNat = 2 ^ 256 / ((setCompact nBits).toNat + 1) := by
  have hroom := setCompact_toNat_add_lt nBits
  have hpos : (setCompact nBits).toNat ≠ 0 := fun hzero => htarget (BitVec.eq_of_toNat_eq hzero)
  have hone : (1 : ArithUint256).toNat = 1 := rfl
  have hproof : getBlockProof nBits = ~~~setCompact nBits / (setCompact nBits + 1) + 1 := by
    simp only [getBlockProof, hflags.1, hflags.2, Bool.or_self, Bool.false_or, decide_eq_true_eq]
    exact if_neg htarget
  have hsucc : (setCompact nBits + 1).toNat = (setCompact nBits).toNat + 1 := by
    rw [BitVec.toNat_add, hone, Nat.mod_eq_of_lt (by omega)]
  rw [hproof, BitVec.toNat_add, hone, BitVec.toNat_udiv, BitVec.toNat_not, hsucc]
  generalize (setCompact nBits).toNat = target at hroom hpos ⊢
  have hsplit : 2 ^ 256 = (2 ^ 256 - 1 - target) + (target + 1) := by omega
  have hquotient : 2 ^ 256 / (target + 1) = (2 ^ 256 - 1 - target) / (target + 1) + 1 := by
    conv_lhs => rw [hsplit]
    exact Nat.add_div_right _ (Nat.succ_pos target)
  refine Eq.trans (Nat.mod_eq_of_lt ?_) hquotient.symm
  exact hquotient ▸ Nat.div_lt_self (by decide) (by omega)

/-- Compact targets are rounded down to the next representable value, with a relative error below
2^-15, and the work of a block is `2^256 / (target + 1)` for a target that is valid, and zero for
any other. -/
theorem compactTargets_chainWork :
    (∀ x : ArithUint256, (setCompactFlags (getCompact x)).Unflagged ∧
      Representable (compactRound x) ∧
      (compactRound x).toNat ≤ x.toNat ∧
      (∀ value, Representable value → value.toNat ≤ x.toNat →
        value.toNat ≤ (compactRound x).toNat) ∧
      (∀ y : ArithUint256, x.toNat ≤ y.toNat → (compactRound x).toNat ≤ (compactRound y).toNat) ∧
      compactRound (compactRound x) = compactRound x ∧
      (x ≠ 0 → (x.toNat - (compactRound x).toNat) * 2 ^ 15 < x.toNat)) ∧
    ∀ nBits : UInt32, ((setCompactFlags nBits).Unflagged ∧ setCompact nBits ≠ 0 →
        (getBlockProof nBits).toNat = 2 ^ 256 / ((setCompact nBits).toNat + 1) ∧
        0 < (getBlockProof nBits).toNat ∧
        ∀ other : UInt32, (setCompactFlags other).Unflagged → setCompact other ≠ 0 →
          (setCompact nBits).toNat ≤ (setCompact other).toNat →
          (getBlockProof other).toNat ≤ (getBlockProof nBits).toNat) ∧
      (¬((setCompactFlags nBits).Unflagged ∧ setCompact nBits ≠ 0) → getBlockProof nBits = 0) := by
  refine ⟨fun x => ?_, fun nBits => ⟨?_, fun hnot => if_pos ?_⟩⟩
  · obtain ⟨hrepresentable, hle, hgreatest⟩ := isGreatest_compactRound x
    obtain ⟨hunflagged, k, hround, hlow, -⟩ := compactRound_eq x
    refine ⟨hunflagged, hrepresentable, hle, hgreatest, fun y hy => ?_, ?_, fun hx => ?_⟩
    · exact (isGreatest_compactRound y).2.2 _ hrepresentable (hle.trans hy)
    · obtain ⟨-, hle', hgreatest'⟩ := isGreatest_compactRound (compactRound x)
      exact BitVec.eq_of_toNat_eq (le_antisymm hle' (hgreatest' _ hrepresentable le_rfl))
    · rw [hround]
      exact dropDigits_error (by decide) hlow (fun hzero => hx (BitVec.eq_of_toNat_eq hzero))
        (by decide)
  · rintro ⟨hflags, htarget⟩
    have hproof := toNat_getBlockProof hflags htarget
    have hroom := setCompact_toNat_add_lt nBits
    refine ⟨hproof, ?_, fun other hflags' htarget' hle => ?_⟩
    · rw [hproof]
      exact Nat.div_pos (by omega) (Nat.succ_pos _)
    · rw [hproof, toNat_getBlockProof hflags' htarget']
      exact Nat.div_le_div_left (Nat.succ_le_succ hle) (Nat.succ_pos _)
  · by_contra hvalid
    simp only [Bool.or_eq_true, decide_eq_true_eq, not_or, Bool.not_eq_true] at hvalid
    exact hnot ⟨⟨hvalid.1.1, hvalid.1.2⟩, hvalid.2⟩

end Tidecoin
