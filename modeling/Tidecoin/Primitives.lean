import Tidecoin.Crypto

/-!
Transactions, headers and blocks with their wire encoding: `primitives/transaction.h`,
`primitives/pureheader.h`, `auxpow.h` and `primitives/block.h`. Encoders are the ones of
`serialize.h`: fixed-width integers in little-endian order, vectors behind a compact size.
-/

namespace Tidecoin

open Lib

def serUint32 (value : UInt32) : Bytes := natToLE 4 value.toNat

def writeCompactSize (nSize : Nat) : Bytes :=
  if nSize < 253 then natToLE 1 nSize
  else if nSize ≤ 0xffff then 253 :: natToLE 2 nSize
  else if nSize ≤ 0xffffffff then 254 :: natToLE 4 nSize
  else 255 :: natToLE 8 nSize

/-- A vector whose elements are written by `write`. -/
def serVector {α : Type} (write : α → Bytes) (elements : List α) : Bytes :=
  writeCompactSize elements.length ++ elements.flatMap write

/-- A vector of bytes: a script or a stack element. -/
def serBytes (bytes : Bytes) : Bytes := writeCompactSize bytes.length ++ bytes

structure COutPoint where
  hash : Uint256
  n : UInt32
deriving DecidableEq, Repr

def COutPoint.isNull (outpoint : COutPoint) : Bool := outpoint.hash = 0 && outpoint.n = 0xffffffff

structure CTxIn where
  prevout : COutPoint
  scriptSig : Bytes
  nSequence : UInt32
  scriptWitness : List Bytes
deriving DecidableEq, Repr

structure CTxOut where
  nValue : BitVec 64
  scriptPubKey : Bytes
deriving DecidableEq, Repr

structure CTransaction where
  vin : List CTxIn
  vout : List CTxOut
  version : UInt32
  nLockTime : UInt32
deriving DecidableEq, Repr

namespace CTransaction

def hasWitness (tx : CTransaction) : Bool := tx.vin.any fun txin => !txin.scriptWitness.isEmpty

def isCoinBase (tx : CTransaction) : Bool :=
  match tx.vin with
  | [txin] => txin.prevout.isNull
  | _ => false

def serTxIn (txin : CTxIn) : Bytes :=
  txin.prevout.hash.toBytes ++ serUint32 txin.prevout.n ++ serBytes txin.scriptSig ++
    serUint32 txin.nSequence

def serTxOut (txout : CTxOut) : Bytes := natToLE 8 txout.nValue.toNat ++ serBytes txout.scriptPubKey

/-- `SerializeTransaction`: the extended format is used exactly when witnesses are allowed and
some input has one. -/
def serialize (tx : CTransaction) (allowWitness : Bool) : Bytes :=
  let extended := allowWitness && tx.hasWitness
  serUint32 tx.version ++
    (if extended then serVector serTxIn [] ++ [1] else []) ++
    serVector serTxIn tx.vin ++ serVector serTxOut tx.vout ++
    (if extended then tx.vin.flatMap fun txin => serVector serBytes txin.scriptWitness else []) ++
    serUint32 tx.nLockTime

variable [Crypto]

/-- `GetHash`: the transaction id, over the encoding without witnesses. -/
def getHash (tx : CTransaction) : Uint256 := hashBytes (tx.serialize false)

/-- `GetWitnessHash`: equal to the id for a transaction without witness, whose two encodings
agree. -/
def getWitnessHash (tx : CTransaction) : Uint256 :=
  if tx.hasWitness then hashBytes (tx.serialize true) else tx.getHash

end CTransaction

/-- A header without merged-mining proof. -/
structure CPureBlockHeader where
  nVersion : BitVec 32
  hashPrevBlock : Uint256
  hashMerkleRoot : Uint256
  nTime : UInt32
  nBits : UInt32
  nNonce : UInt32
deriving DecidableEq, Repr

namespace CPureBlockHeader

/-- The 80 header bytes. -/
def serialize (header : CPureBlockHeader) : Bytes :=
  natToLE 4 header.nVersion.toNat ++ header.hashPrevBlock.toBytes ++
    header.hashMerkleRoot.toBytes ++ serUint32 header.nTime ++ serUint32 header.nBits ++
    serUint32 header.nNonce

/-- `SetNull`. -/
def null : CPureBlockHeader := ⟨0, 0, 0, 0, 0, 0⟩

section

variable (header : CPureBlockHeader)
include header

/-- `VERSION_AUXPOW` is set. -/
def isAuxpow : Bool := header.nVersion &&& 0x100 ≠ 0

/-- The chain id in version bits 16 to 20, zero without the merged-mining bit. -/
def getChainId : Int :=
  if header.isAuxpow then ((header.nVersion &&& 0x1f0000) >>> 16).toNat else 0

/-- `IsLegacy`: the version number is exactly one. -/
def isLegacy : Bool := header.nVersion = 1

def getBlockTime : Int := header.nTime.toNat

end

variable [Crypto]

def getHash (header : CPureBlockHeader) : Uint256 := hashBytes header.serialize

def getPoWHash (header : CPureBlockHeader) : Uint256 := Crypto.yespower header.serialize

def getScryptPoWHash (header : CPureBlockHeader) : Uint256 := Crypto.scrypt header.serialize

end CPureBlockHeader

/-- The merged-mining proof: the parent's coinbase, its branch to the parent's Merkle root, and
the branch from the auxiliary block to the root committed to in the coinbase. -/
structure CAuxPow where
  coinbaseTx : CTransaction
  vMerkleBranch : List Uint256
  vChainMerkleBranch : List Uint256
  nChainIndex : BitVec 32
  parentBlock : CPureBlockHeader
deriving DecidableEq, Repr

/-- The proof's encoding, with the unused block hash and coinbase index written as zero. -/
def CAuxPow.serialize (auxpow : CAuxPow) : Bytes :=
  auxpow.coinbaseTx.serialize true ++ (0 : Uint256).toBytes ++
    serVector Uint256.toBytes auxpow.vMerkleBranch ++ natToLE 4 0 ++
    serVector Uint256.toBytes auxpow.vChainMerkleBranch ++
    natToLE 4 auxpow.nChainIndex.toNat ++ auxpow.parentBlock.serialize

structure CBlockHeader extends CPureBlockHeader where
  auxpow : Option CAuxPow
deriving DecidableEq, Repr

namespace CBlockHeader

/-- The header's encoding. A header that has the merged-mining bit and no proof cannot be written:
the encoder throws. A proof without the bit is not written. -/
def serialize (header : CBlockHeader) : Option Bytes :=
  if header.isAuxpow then
    header.auxpow.map fun auxpow => header.toCPureBlockHeader.serialize ++ auxpow.serialize
  else some header.toCPureBlockHeader.serialize

/-- The header with `auxpow.reset()`. -/
def withoutAuxpow (header : CBlockHeader) : CBlockHeader := { header with auxpow := none }

@[simp] lemma withoutAuxpow_toCPureBlockHeader (header : CBlockHeader) :
    header.withoutAuxpow.toCPureBlockHeader = header.toCPureBlockHeader := rfl

end CBlockHeader

/-- A block. The three cached flags of the C++ class are modelled where they are read. -/
structure CBlock extends CBlockHeader where
  vtx : List CTransaction
deriving DecidableEq, Repr

end Tidecoin
