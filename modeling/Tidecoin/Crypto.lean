import Tidecoin.Arith

/-!
The hash functions the program calls. They are parameters of the model: nothing is assumed about
them beyond the length of their output, and every result that needs collision resistance says so
for the inputs it hashes.
-/

namespace Tidecoin

open Lib

/-- The hash primitives, as functions of the hashed bytes. `yespower` and `scrypt` are the two
proof-of-work functions, applied to an 80-byte header. -/
class Crypto where
  sha256 : Bytes → Bytes
  sha512 : Bytes → Bytes
  sha1 : Bytes → Bytes
  ripemd160 : Bytes → Bytes
  yespower : Bytes → Uint256
  scrypt : Bytes → Uint256
  sha256Length : ∀ bytes, (sha256 bytes).length = 32
  sha512Length : ∀ bytes, (sha512 bytes).length = 64
  sha1Length : ∀ bytes, (sha1 bytes).length = 20
  ripemd160Length : ∀ bytes, (ripemd160 bytes).length = 20

variable [Crypto]

/-- `CHash256`: double SHA-256. -/
def hash256 (bytes : Bytes) : Bytes := Crypto.sha256 (Crypto.sha256 bytes)

/-- `CHash160`: SHA-256 followed by RIPEMD-160. -/
def hash160 (bytes : Bytes) : Bytes := Crypto.ripemd160 (Crypto.sha256 bytes)

/-- `HashWriter::GetHash` over the written bytes. -/
def hashBytes (bytes : Bytes) : Uint256 := Uint256.ofBytes (hash256 bytes)

/-- `Hash(left, right)`: double SHA-256 of the concatenation. -/
def hashPair (left right : Uint256) : Uint256 := hashBytes (left.toBytes ++ right.toBytes)

omit [Crypto] in
/-- A choice of the primitives that can be evaluated. The digests read the bytes as digits of a
number in base 257, so different short inputs have different digests. -/
@[reducible] def Crypto.digits : Crypto where
  sha256 bytes := natToLE 32 (bytes.foldl (fun acc byte => acc * 257 + byte.toNat + 1) 0)
  sha512 bytes := natToLE 64 (bytes.foldl (fun acc byte => acc * 257 + byte.toNat + 1) 0)
  sha1 bytes := natToLE 20 (bytes.foldl (fun acc byte => acc * 257 + byte.toNat + 1) 0)
  ripemd160 bytes := natToLE 20 (bytes.foldl (fun acc byte => acc * 257 + byte.toNat + 1) 0)
  yespower _ := 0
  scrypt _ := 0
  sha256Length _ := natToLE_length _ _
  sha512Length _ := natToLE_length _ _
  sha1Length _ := natToLE_length _ _
  ripemd160Length _ := natToLE_length _ _

end Tidecoin
