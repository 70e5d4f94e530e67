import Tidecoin.Lib.Bytes

/-!
The 256-bit numbers of `uint256.h` and `arith_uint256.cpp`. A `uint256` blob is represented by the
number its 32 bytes denote in little-endian order, so the conversions between blob and number are
the identity; sums and products wrap modulo 2^256 as the C++ operators do.
-/

namespace Tidecoin

open Lib

abbrev Uint256 := BitVec 256

abbrev ArithUint256 := BitVec 256

/-- The 32 bytes of a blob, in memory order. -/
def Uint256.toBytes (blob : Uint256) : Bytes := natToLE 32 blob.toNat

/-- The blob whose memory holds the given bytes. -/
def Uint256.ofBytes (bytes : Bytes) : Uint256 := BitVec.ofNat 256 (leToNat bytes)

@[simp] lemma Uint256.toBytes_length (blob : Uint256) : blob.toBytes.length = 32 := by
  simp [Uint256.toBytes]

@[simp] lemma Uint256.ofBytes_toBytes (blob : Uint256) : Uint256.ofBytes blob.toBytes = blob := by
  have hlt : blob.toNat < 256 ^ 32 := blob.isLt
  rw [Uint256.ofBytes, Uint256.toBytes, leToNat_natToLE, Nat.mod_eq_of_lt hlt,
    BitVec.ofNat_toNat, BitVec.setWidth_eq]

lemma Uint256.toBytes_injective : Function.Injective Uint256.toBytes := by
  intro left right heq
  rw [← left.ofBytes_toBytes, heq, right.ofBytes_toBytes]

lemma Uint256.toBytes_ofBytes {bytes : Bytes} (hlength : bytes.length = 32) :
    (Uint256.ofBytes bytes).toBytes = bytes := by
  have hlt : leToNat bytes < 2 ^ 256 := by
    have hbound := leToNat_lt bytes
    rw [hlength] at hbound
    exact hbound
  rw [Uint256.ofBytes, Uint256.toBytes, BitVec.toNat_ofNat, Nat.mod_eq_of_lt hlt, ← hlength,
    natToLE_leToNat]

def uintToArith256 (blob : Uint256) : ArithUint256 := blob

namespace ArithUint256

/-- The implicit conversion of a 64-bit operand: signed values are first converted to `uint64_t`. -/
def ofInt64 (value : Int) : ArithUint256 := BitVec.ofNat 256 (value % 2 ^ 64).toNat

/-- `operator*=(uint32_t)`, the overload an `int64_t` operand selects: the operand keeps only its
low 32 bits. -/
def mulUint32 (target : ArithUint256) (value : Int) : ArithUint256 :=
  target * BitVec.ofNat 256 (value % 2 ^ 32).toNat

/-- Position of the highest set bit plus one; zero for zero. -/
def bits (target : ArithUint256) : Nat :=
  if target.toNat = 0 then 0 else target.toNat.log2 + 1

/-- The number a compact encoding denotes with the sign and overflow flags of `SetCompact`. -/
structure Compact where
  target : ArithUint256
  fNegative : Bool
  fOverflow : Bool
deriving DecidableEq, Repr

def setCompactFlags (nCompact : UInt32) : Compact :=
  let nSize := nCompact.toNat >>> 24
  let mantissa := nCompact.toNat &&& 0x007fffff
  -- The small sizes shift the mantissa itself, and the flags below read the shifted mantissa.
  let nWord := if nSize ≤ 3 then mantissa >>> (8 * (3 - nSize)) else mantissa
  { target :=
      if nSize ≤ 3 then BitVec.ofNat 256 nWord
      else BitVec.ofNat 256 nWord <<< (8 * (nSize - 3))
    fNegative := nWord ≠ 0 && nCompact.toNat &&& 0x00800000 ≠ 0
    fOverflow := nWord ≠ 0 && (nSize > 34 || (nWord > 0xff && nSize > 33) ||
      (nWord > 0xffff && nSize > 32)) }

def setCompact (nCompact : UInt32) : ArithUint256 := (setCompactFlags nCompact).target

/-- A decoded target is below 2^23 or a multiple of 256, so a small slack added to it does not
wrap. -/
theorem setCompact_toNat_add_lt (nCompact : UInt32) :
    (setCompact nCompact).toNat + 255 < 2 ^ 256 := by
  simp only [setCompact, setCompactFlags]
  split
  case isTrue hsmall =>
    have hmask : nCompact.toNat &&& 0x007fffff ≤ 0x007fffff := Nat.and_le_right
    have hshift : (nCompact.toNat &&& 0x007fffff) >>> (8 * (3 - nCompact.toNat >>> 24)) ≤
        nCompact.toNat &&& 0x007fffff := Nat.shiftRight_le _ _
    have hmod := Nat.mod_le
      ((nCompact.toNat &&& 0x007fffff) >>> (8 * (3 - nCompact.toNat >>> 24))) (2 ^ 256)
    exact lt_of_le_of_lt (Nat.add_le_add_right (hmod.trans (hshift.trans hmask)) 255) (by decide)
  case isFalse hlarge =>
    obtain ⟨extra, heq⟩ : ∃ extra, 8 * (nCompact.toNat >>> 24 - 3) = 8 + extra :=
      ⟨8 * (nCompact.toNat >>> 24 - 3) - 8, by omega⟩
    rw [heq, BitVec.toNat_shiftLeft, Nat.shiftLeft_eq, pow_add, Nat.mul_left_comm]
    omega

def getLow64 (target : ArithUint256) : Nat := target.toNat % 2 ^ 64

/-- `GetCompact(false)`: the mantissa is truncated to 32 bits and moved down one byte when it
would reach the sign bit. -/
def getCompact (target : ArithUint256) : UInt32 :=
  let nSize := (bits target + 7) / 8
  let nCompact :=
    if nSize ≤ 3 then (getLow64 target <<< (8 * (3 - nSize))) % 2 ^ 32
    else getLow64 (target >>> (8 * (nSize - 3))) % 2 ^ 32
  if nCompact &&& 0x00800000 ≠ 0 then
    UInt32.ofNat ((nCompact >>> 8) ||| ((nSize + 1) <<< 24))
  else
    UInt32.ofNat (nCompact ||| (nSize <<< 24))

end ArithUint256

end Tidecoin
