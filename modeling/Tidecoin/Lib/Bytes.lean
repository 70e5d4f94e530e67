import Mathlib.Data.UInt
import Mathlib.Tactic.Ring

/-!
Little-endian byte strings. A natural number is written in a fixed number of bytes, least
significant byte first, and read back by Horner's rule; a number that fits is read back as it was
written.
-/

namespace Tidecoin.Lib

abbrev Bytes := List UInt8

/-- The `width` low-order bytes of `n`, least significant first. -/
def natToLE : (width : Nat) → (n : Nat) → Bytes
  | 0, _ => []
  | width + 1, n => UInt8.ofNat n :: natToLE width (n / 256)

/-- The number a little-endian byte string denotes. -/
def leToNat : Bytes → Nat
  | [] => 0
  | byte :: rest => byte.toNat + 256 * leToNat rest

@[simp] lemma natToLE_length (width n : Nat) : (natToLE width n).length = width := by
  induction width generalizing n with
  | zero => rfl
  | succ width ih => simp [natToLE, ih]

lemma leToNat_natToLE (width n : Nat) : leToNat (natToLE width n) = n % 256 ^ width := by
  induction width generalizing n with
  | zero => simp [natToLE, leToNat, Nat.mod_one]
  | succ width ih =>
    have hbyte : (UInt8.ofNat n).toNat = n % 256 := by simp
    rw [natToLE, leToNat, ih, hbyte, Nat.pow_succ, Nat.mul_comm (256 ^ width) 256, Nat.mod_mul]

lemma leToNat_natToLE_toNat {width bits : Nat} (hbits : 8 * width = bits) (blob : BitVec bits) :
    leToNat (natToLE width blob.toNat) = blob.toNat := by
  have hpow : 256 ^ width = 2 ^ bits := by rw [← hbits, Nat.pow_mul]
  rw [leToNat_natToLE, hpow, Nat.mod_eq_of_lt blob.isLt]

lemma leToNat_lt (bytes : Bytes) : leToNat bytes < 256 ^ bytes.length := by
  induction bytes with
  | nil => simp [leToNat]
  | cons byte rest ih =>
    have hbyte : byte.toNat < 256 := byte.toNat_lt
    rw [leToNat, List.length_cons, Nat.pow_succ]
    omega

lemma leToNat_append (bytes rest : Bytes) :
    leToNat (bytes ++ rest) = leToNat bytes + 256 ^ bytes.length * leToNat rest := by
  induction bytes with
  | nil => simp [leToNat]
  | cons byte bytes ih =>
    rw [List.cons_append, leToNat, leToNat, ih, List.length_cons, Nat.pow_succ]
    ring

lemma natToLE_leToNat (bytes : Bytes) : natToLE bytes.length (leToNat bytes) = bytes := by
  induction bytes with
  | nil => rfl
  | cons byte rest ih =>
    have hbyte : byte.toNat < 256 := byte.toNat_lt
    have hlow : UInt8.ofNat (byte.toNat + 256 * leToNat rest) = byte := by
      apply UInt8.toNat_inj.1
      rw [UInt8.toNat_ofNat']
      omega
    have hhigh : (byte.toNat + 256 * leToNat rest) / 256 = leToNat rest := by omega
    rw [leToNat, List.length_cons, natToLE, hlow, hhigh, ih]

end Tidecoin.Lib
