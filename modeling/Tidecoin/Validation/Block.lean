import Tidecoin.AuxPow
import Tidecoin.Pow
import Tidecoin.Validation.Transaction

/-!
The checks of headers and blocks in `validation.cpp` that need no coins, with the Merkle trees of
`consensus/merkle.cpp`. A block object caches three successful checks in mutable flags; they are
passed along as a `BlockCache`, and a flag is only set where the source sets it.
-/

namespace Tidecoin

open Lib

/-- `MAX_TIMEWARP`, in seconds. -/
def maxTimewarp : Int := 600

def versionbitsTopBits : Int := 0x20000000

def minimumWitnessCommitment : Nat := 38

namespace CPureBlockHeader

/-- `GetBaseVersion`: the version without the merged-mining bit and the chain id. -/
def getBaseVersion (header : CPureBlockHeader) : BitVec 32 :=
  header.nVersion &&& ~~~0x100 &&& ~~~0x1f0000

/-- The chain id bits, with or without the merged-mining bit. -/
def chainIdBits (header : CPureBlockHeader) : BitVec 32 := header.nVersion &&& 0x1f0000

end CPureBlockHeader

def isValidBaseVersion (baseVersion : BitVec 32) : Bool :=
  (baseVersion &&& ~~~0x70000000).toInt < 0x10000

/-- The height of the block after `pindexPrev`, zero for the first one. -/
def heightAfter (pindexPrev : Option CBlockIndex) : Int :=
  match pindexPrev with
  | none => 0
  | some pindexPrev => pindexPrev.nHeight + 1

/-- `DeploymentActiveAfter` for a deployment that is active from a height on. -/
def deploymentActiveAfter (pindexPrev : Option CBlockIndex) (deploymentHeight : Int) : Bool :=
  heightAfter pindexPrev ≥ deploymentHeight

def deploymentActiveAt (pindex : CBlockIndex) (deploymentHeight : Int) : Bool :=
  pindex.nHeight ≥ deploymentHeight

/-- A version as `%08x` prints it. -/
def versionHex (version : BitVec 32) : String := "0x" ++ version.toHex

variable [Crypto]

section

variable (block : CBlockHeader) (params : Params)

/-- `CheckAuxPowContext`. A failure that belongs to one proof is reported as a mutation, since
another proof for the same header can be valid. -/
def checkAuxPowContext (height : Option Int) :
    Except BlockInvalid Unit := do
  require (block.isAuxpow = true → block.auxpow.isSome = true)
    ⟨.mutated, "auxpow-missing", "auxpow flag set but auxpow missing"⟩
  require (block.auxpow.isSome = true → block.isAuxpow = true)
    ⟨.mutated, "auxpow-unexpected", "auxpow present without auxpow flag"⟩
  require (∀ h ∈ height, usePostAuxpowPowRules params h = false →
      block.isAuxpow = false ∧ block.auxpow.isSome = false)
    ⟨.invalidHeader, "auxpow-pre-activation", "auxpow not allowed before activation"⟩
  require (params.fStrictChainId = true → block.isLegacy = false → block.isAuxpow = true →
      block.getChainId = params.nAuxpowChainId)
    ⟨.invalidHeader, "auxpow-chainid", "auxpow chain id mismatch"⟩
  require (block.isAuxpow = true → ∀ auxpow ∈ block.auxpow,
      auxpow.check block.getHash block.getChainId params = true)
    ⟨.mutated, "auxpow-invalid", "auxpow check failed"⟩
  require (block.isAuxpow = true → ∀ auxpow ∈ block.auxpow,
      checkProofOfWorkHash auxpow.parentBlock.getScryptPoWHash block.nBits params = true)
    ⟨.mutated, "auxpow-parent-pow", "auxpow parent proof of work failed"⟩

/-- The work of a header without merged mining: by the rule of its height, or by either rule if the
height is not known. -/
def checkOrdinaryWork (height : Option Int) : Bool :=
  match height with
  | some height => checkProofOfWork block params height
  | none => checkProofOfWorkAny block params

def checkBlockHeader (fCheckPOW : Bool) (height : Option Int) : Except BlockInvalid Unit :=
  if fCheckPOW then do
    checkAuxPowContext block params height
    require (block.isAuxpow = false → checkOrdinaryWork block params height = true)
      ⟨.invalidHeader, "high-hash", "proof of work failed"⟩
  else .ok ()

end

def checkHeaderProofOfWork (header : CBlockHeader) (params : Params) (height : Option Int) : Bool :=
  match checkAuxPowContext header params height with
  | .error _ => false
  | .ok _ => header.isAuxpow || checkOrdinaryWork header params height

/-- `HasValidProofOfWork`: every header at its height, or all of them without one. -/
def hasValidProofOfWork (params : Params) : List CBlockHeader → (startHeight : Option Int) → Bool
  | [], _ => true
  | header :: headers, startHeight =>
    checkHeaderProofOfWork header params startHeight &&
      hasValidProofOfWork params headers (startHeight.map (· + 1))

lemma checkBlockHeader_eq_ok_iff (block : CBlockHeader) (params : Params) (height : Option Int) :
    checkBlockHeader block params true height = .ok () ↔
      checkHeaderProofOfWork block params height := by
  rw [checkBlockHeader, if_pos rfl, checkHeaderProofOfWork]
  cases checkAuxPowContext block params height with
  | error invalid => exact ⟨fun hok => (nomatch hok), fun htrue => (nomatch htrue)⟩
  | ok value =>
    change require _ _ = .ok () ↔ _
    rw [require_eq_ok]
    cases block.isAuxpow with
    | false => simp
    | true => simp

/-- One level of a Merkle tree; the last hash of an odd level is paired with itself. -/
def combinePairs : List Uint256 → List Uint256
  | left :: right :: hashes => hashPair left right :: combinePairs hashes
  | [hash] => [hashPair hash hash]
  | [] => []

omit [Crypto] in
/-- Two equal hashes are paired on a level. -/
def hasEqualPair : List Uint256 → Bool
  | left :: right :: hashes => left = right || hasEqualPair hashes
  | _ => false

/-- The loop of `ComputeMerkleRoot` with a bound on the number of levels. -/
def merkleLoop : (fuel : Nat) → (hashes : List Uint256) → (mutation : Bool) → Uint256 × Bool
  | 0, hashes, mutation => (hashes.headD 0, mutation)
  | fuel + 1, hashes, mutation =>
    if hashes.length > 1 then
      merkleLoop fuel (combinePairs hashes) (mutation || hasEqualPair hashes)
    else (hashes.headD 0, mutation)

/-- `ComputeMerkleRoot`: the root and the mutation flag. -/
def computeMerkleRoot (hashes : List Uint256) : Uint256 × Bool :=
  merkleLoop hashes.length hashes false

def blockMerkleRoot (block : CBlock) : Uint256 × Bool :=
  computeMerkleRoot (block.vtx.map CTransaction.getHash)

/-- The leaf of the coinbase is zero. -/
def blockWitnessMerkleRoot (block : CBlock) : Uint256 :=
  (computeMerkleRoot (0 :: (block.vtx.drop 1).map CTransaction.getWitnessHash)).1

section

omit [Crypto]

/-- The encoding of a block, with or without witnesses; it exists when that of its header does. -/
def CBlock.serialize (block : CBlock) (allowWitness : Bool) : Option Bytes :=
  block.toCBlockHeader.serialize.map fun header =>
    header ++ serVector (fun tx => tx.serialize allowWitness) block.vtx

/-- The output carries a witness commitment. -/
def isWitnessCommitment (txout : CTxOut) : Bool :=
  txout.scriptPubKey.length ≥ minimumWitnessCommitment &&
    txout.scriptPubKey.take 6 = [opReturn, 0x24, 0xaa, 0x21, 0xa9, 0xed]

/-- `GetWitnessCommitmentIndex`: the last such output of the coinbase. -/
def getWitnessCommitmentIndex (block : CBlock) : Option Nat :=
  match block.vtx with
  | [] => none
  | coinbase :: _ =>
    (coinbase.vout.zipIdx.filter fun entry => isWitnessCommitment entry.1).getLast?.map Prod.snd

/-- A failure that depends on the size of the proof. -/
def proofSizeResult (block : CBlock) : BlockValidationResult :=
  if block.isAuxpow then .mutated else .consensus

/-- The exception of the encoder for a flagged header without proof. -/
def encodingFailure : BlockInvalid := ⟨.resultUnset, "auxpow flag set but auxpow missing", ""⟩

/-- The limit on the size without witnesses. -/
def checkBlockSize (block : CBlock) : Except BlockInvalid Unit :=
  match block.serialize false with
  | none => .error encodingFailure
  | some bytes => require (bytes.length * witnessScaleFactor ≤ maxBlockWeight)
      ⟨proofSizeResult block, "bad-blk-length", "size limits failed"⟩

/-- The limit on `GetBlockWeight`. -/
def checkBlockWeight (block : CBlock) : Except BlockInvalid Unit :=
  match block.serialize false, block.serialize true with
  | some stripped, some total =>
    require (stripped.length * (witnessScaleFactor - 1) + total.length ≤ maxBlockWeight)
      ⟨proofSizeResult block, "bad-blk-weight", "ContextualCheckBlock : weight limit failed"⟩
  | _, _ => .error encodingFailure

end

/-- The cached successes of a block object. -/
structure BlockCache where
  fChecked : Bool
  checkedWitnessCommitment : Bool
  checkedMerkleRoot : Bool
deriving DecidableEq, Repr

/-- The flags of a block that was just read. -/
def BlockCache.fresh : BlockCache := ⟨false, false, false⟩

omit [Crypto] in
/-- A check that is skipped when cached and stored when it succeeds. -/
def cachedCheck (cached : Bool) (check : Except BlockInvalid Unit) (stored cache : BlockCache) :
    Except BlockInvalid Unit × BlockCache :=
  if cached then (.ok (), cache)
  else match check with
    | .error invalid => (.error invalid, cache)
    | .ok _ => (.ok (), stored)

section

variable (block : CBlock)

/-- The comparison of the Merkle root, and the check for repeated transactions. -/
def merkleRootMatches : Except BlockInvalid Unit := do
  require (block.hashMerkleRoot = (blockMerkleRoot block).1)
    ⟨.mutated, "bad-txnmrklroot", "hashMerkleRoot mismatch"⟩
  require ((blockMerkleRoot block).2 = false) ⟨.mutated, "bad-txns-duplicate",
    "duplicate transaction"⟩

def checkMerkleRoot (cache : BlockCache) : Except BlockInvalid Unit × BlockCache :=
  cachedCheck cache.checkedMerkleRoot (merkleRootMatches block)
    { cache with checkedMerkleRoot := true } cache

/-- The witness commitment of the coinbase matches the witness tree. -/
def witnessCommitmentMatches (coinbase : CTransaction) (commitpos : Nat) :
    Except BlockInvalid Unit := do
  let witnessStack := (coinbase.vin.head?.map CTxIn.scriptWitness).getD []
  require (witnessStack.map List.length = [32])
    ⟨.mutated, "bad-witness-nonce-size",
      "CheckWitnessMalleation : invalid witness reserved value size"⟩
  let hashWitness := hash256 ((blockWitnessMerkleRoot block).toBytes ++ witnessStack.headD [])
  require (∀ txout ∈ coinbase.vout[commitpos]?, (txout.scriptPubKey.drop 6).take 32 = hashWitness)
    ⟨.mutated, "bad-witness-merkle-match",
      "CheckWitnessMalleation : witness merkle commitment mismatch"⟩

omit [Crypto] in
/-- No transaction carries witness data. -/
def noWitness : Except BlockInvalid Unit :=
  require (∀ tx ∈ block.vtx, tx.hasWitness = false)
    ⟨.mutated, "unexpected-witness", "CheckWitnessMalleation : unexpected witness data found"⟩

def checkWitnessMalleation (expectWitnessCommitment : Bool) (cache : BlockCache) :
    Except BlockInvalid Unit × BlockCache :=
  if expectWitnessCommitment && cache.checkedWitnessCommitment then (.ok (), cache)
  else match expectWitnessCommitment, block.vtx, getWitnessCommitmentIndex block with
    | true, coinbase :: _, some commitpos =>
      cachedCheck false (witnessCommitmentMatches block coinbase commitpos)
        { cache with checkedWitnessCommitment := true } cache
    | _, _, _ => (noWitness block, cache)

end

/-- `CheckTransaction` with its failure as a failure of the block. -/
def checkBlockTransaction (tx : CTransaction) : Except BlockInvalid Unit :=
  match checkTransaction tx with
  | .ok _ => .ok ()
  | .error invalid => .error ⟨.consensus, invalid.rejectReason,
      "Transaction check failed (tx hash " ++ tx.getHash.toHex ++ ") " ++ invalid.debugMessage⟩

omit [Crypto] in
/-- The size limits that the Merkle root commits to. -/
def checkTransactionCount (block : CBlock) : Except BlockInvalid Unit :=
  require (block.vtx ≠ [] ∧ block.vtx.length * witnessScaleFactor ≤ maxBlockWeight)
    ⟨.consensus, "bad-blk-length", "size limits failed"⟩

/-- The end of `CheckBlock`: the coinbase, the transactions and their signature operations, whose
count is an `unsigned int`. -/
def checkBlockTransactions (block : CBlock) : Except BlockInvalid Unit := do
  require (∃ coinbase ∈ block.vtx.head?, coinbase.isCoinBase = true)
    ⟨.consensus, "bad-cb-missing", "first tx is not coinbase"⟩
  require (∀ tx ∈ block.vtx.drop 1, tx.isCoinBase = false)
    ⟨.consensus, "bad-cb-multiple", "more than one coinbase"⟩
  block.vtx.forM checkBlockTransaction
  require ((block.vtx.map getLegacySigOpCount).sum * witnessScaleFactor % 2 ^ 32 ≤
      maxBlockSigopsCost)
    ⟨.consensus, "bad-blk-sigops", "out-of-bounds SigOpCount"⟩

/-- The checks of `CheckBlock` after the Merkle root. -/
def checkBlockBody (block : CBlock) : Except BlockInvalid Unit := do
  checkTransactionCount block
  checkBlockSize block
  checkBlockTransactions block

/-- What the checks make sure of about the transactions: the first one and no other is a coinbase,
and each passes its own check. -/
theorem checkBlockBody_ok {block : CBlock} (hbody : checkBlockBody block = .ok ()) :
    ∃ coinbase vtx, block.vtx = coinbase :: vtx ∧ coinbase.isCoinBase ∧
      (∀ tx ∈ vtx, tx.isCoinBase = false) ∧ ∀ tx ∈ block.vtx, checkTransaction tx = .ok () := by
  obtain ⟨_, -, hbody⟩ := bind_eq_ok.1 hbody
  obtain ⟨_, -, hbody⟩ := bind_eq_ok.1 hbody
  obtain ⟨_, hfirst, hbody⟩ := bind_eq_ok.1 hbody
  obtain ⟨_, hothers, hbody⟩ := bind_eq_ok.1 hbody
  obtain ⟨_, hchecks, -⟩ := bind_eq_ok.1 hbody
  obtain ⟨coinbase, hhead, hcoinbase⟩ := require_eq_ok.1 hfirst
  obtain ⟨vtx, hvtx⟩ := List.head?_eq_some_iff.1 hhead
  refine ⟨coinbase, vtx, hvtx, hcoinbase, ?_, ?_⟩
  · have hrest := require_eq_ok.1 hothers
    rwa [hvtx, List.drop_one, List.tail_cons] at hrest
  · revert hchecks
    generalize block.vtx = txs
    intro hchecks
    induction txs with
    | nil => simp
    | cons tx txs ih =>
      obtain ⟨_, htx, hchecks⟩ := bind_eq_ok.1 hchecks
      refine List.forall_mem_cons.2 ⟨?_, ih hchecks⟩
      unfold checkBlockTransaction at htx
      split at htx
      case h_1 hcheck => exact hcheck
      case h_2 => cases htx

section

variable (block : CBlock) (params : Params)

def checkBlockImpl (fCheckPOW fCheckMerkleRoot : Bool)
    (height : Option Int) (ordinaryHeaderChecked : Bool) (cache : BlockCache) :
    Except BlockInvalid Unit × BlockCache :=
  if cache.fChecked then (.ok (), cache)
  else match (if ordinaryHeaderChecked then .ok ()
      else checkBlockHeader block.toCBlockHeader params fCheckPOW height) with
    | .error invalid => (.error invalid, cache)
    | .ok _ =>
      match (if fCheckMerkleRoot then checkMerkleRoot block cache else (.ok (), cache)) with
      | (.error invalid, cache) => (.error invalid, cache)
      | (.ok _, cache) =>
        cachedCheck false (checkBlockBody block)
          { cache with
            fChecked := cache.fChecked || (fCheckPOW && fCheckMerkleRoot && height.isSome) }
          cache

def checkBlock (fCheckPOW fCheckMerkleRoot : Bool) (height : Option Int) (cache : BlockCache) :
    Except BlockInvalid Unit × BlockCache :=
  checkBlockImpl block params fCheckPOW fCheckMerkleRoot height false cache

omit [Crypto] in
/-- The time transactions of the block must be final at. -/
def lockTimeCutoff (pindexPrev : Option CBlockIndex) : Int :=
  match pindexPrev with
  | some prev =>
    if deploymentActiveAfter pindexPrev params.csvHeight then prev.getMedianTimePast
    else block.getBlockTime
  | none => block.getBlockTime

omit [Crypto] in
/-- The first checks of `ContextualCheckBlock`: final transactions, and the height in the
coinbase. -/
def checkBlockContext (pindexPrev : Option CBlockIndex) :
    Except BlockInvalid Unit := do
  let nHeight := heightAfter pindexPrev
  require (∀ tx ∈ block.vtx, isFinalTx tx nHeight (lockTimeCutoff block params pindexPrev) = true)
    ⟨.consensus, "bad-txns-nonfinal", "non-final transaction"⟩
  require (deploymentActiveAfter pindexPrev params.bip34Height = true →
      Script.pushInt64 nHeight <+:
        ((block.vtx.head?.bind fun tx => tx.vin.head?).map CTxIn.scriptSig).getD [])
    ⟨.consensus, "bad-cb-height", "block height mismatch in coinbase"⟩

def contextualCheckBlock (pindexPrev : Option CBlockIndex) (cache : BlockCache) :
    Except BlockInvalid Unit × BlockCache :=
  match checkBlockContext block params pindexPrev with
  | .error invalid => (.error invalid, cache)
  | .ok _ =>
    match checkWitnessMalleation block (deploymentActiveAfter pindexPrev params.segwitHeight)
      cache with
    | (.error invalid, cache) => (.error invalid, cache)
    | (.ok _, cache) => (checkBlockWeight block, cache)

end

/-- `ContextualCheckBlockHeader` at the given clock time, in seconds. -/
def contextualCheckBlockHeader (block : CBlockHeader) (params : Params) (pindexPrev : CBlockIndex)
    (now : Int) : Except BlockInvalid Unit := do
  let nHeight := pindexPrev.nHeight + 1
  let baseVer := block.getBaseVersion
  let rejected := "rejected nVersion=" ++ versionHex block.nVersion
  require (getNextWorkRequired pindexPrev block params = some block.nBits)
    ⟨.invalidHeader, "bad-diffbits", "incorrect proof of work"⟩
  require (pindexPrev.getMedianTimePast < block.getBlockTime)
    ⟨.invalidHeader, "time-too-old", "block's timestamp is too early"⟩
  require (params.enforceBIP94 = true → nHeight.tmod params.difficultyAdjustmentInterval = 0 →
      pindexPrev.getBlockTime - maxTimewarp ≤ block.getBlockTime)
    ⟨.invalidHeader, "time-timewarp-attack",
      "block's timestamp is too early on diff adjustment block"⟩
  require (block.getBlockTime ≤ now + maxFutureBlockTime)
    ⟨.timeFuture, "time-too-new", "block timestamp too far in the future"⟩
  require (usePostAuxpowPowRules params nHeight = false →
      deploymentActiveAfter pindexPrev params.segwitHeight = true →
      versionbitsTopBits ≤ block.nVersion.toInt)
    ⟨.invalidHeader, "bad-version(" ++ versionHex block.nVersion ++ ")",
      rejected ++ " block before AuxPoW activation"⟩
  require ((deploymentActiveAfter pindexPrev params.bip34Height = true → 2 ≤ baseVer.toInt) ∧
      (deploymentActiveAfter pindexPrev params.bip66Height = true → 3 ≤ baseVer.toInt) ∧
      (deploymentActiveAfter pindexPrev params.bip65Height = true → 4 ≤ baseVer.toInt))
    ⟨.invalidHeader, "bad-version(" ++ versionHex baseVer ++ ")",
      rejected ++ " (base=" ++ toString baseVer.toInt ++ ") block"⟩
  require (usePostAuxpowPowRules params nHeight = true → params.fStrictChainId = true →
      block.isAuxpow = false → block.chainIdBits = 0)
    ⟨.invalidHeader, "auxpow-chainid", "chain id set without auxpow flag"⟩
  require (usePostAuxpowPowRules params nHeight = true → isValidBaseVersion baseVer = true)
    ⟨.invalidHeader, "bad-version(" ++ versionHex baseVer ++ ")",
      rejected ++ " (base=" ++ toString baseVer.toInt ++ ") block"⟩

end Tidecoin
