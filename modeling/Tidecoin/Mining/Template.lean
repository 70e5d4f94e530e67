import Tidecoin.Validation.Block

/-!
The block template of `node/miner.cpp`: the coinbase, the witness commitment and the header that
`CreateNewBlock` puts around the transactions selected from the mempool. The selection itself and
the final validity test are inputs here.
-/

namespace Tidecoin

open Lib

/-- What `CreateNewBlock` reads of the node besides its tip: the version, the clock, the selected
transactions with their total fee, and the message of a failed validity test. -/
structure Assembly where
  nVersion : BitVec 32
  now : Int
  selected : List CTransaction
  nFees : Int
  validity : Option String
deriving DecidableEq, Repr

def maxSequenceNonfinal : UInt32 := 0xfffffffe

def getMinimumTime (pindexPrev : CBlockIndex) (difficultyAdjustmentInterval : Int) : Int :=
  let minTime := pindexPrev.getMedianTimePast + 1
  if (pindexPrev.nHeight + 1).tmod difficultyAdjustmentInterval = 0 then
    max minTime (pindexPrev.getBlockTime - maxTimewarp)
  else minTime

/-- `UpdateTime`: the time never goes back, and it can change the required work where
minimum-difficulty blocks are allowed. -/
def updateTime (header : CBlockHeader) (params : Params) (pindexPrev : CBlockIndex) (now : Int) :
    Option CBlockHeader :=
  let nNewTime := max (getMinimumTime pindexPrev params.difficultyAdjustmentInterval) now
  let header := if header.getBlockTime < nNewTime then
    { header with nTime := UInt32.ofInt nNewTime } else header
  if params.fPowAllowMinDifficultyBlocks then
    (getNextWorkRequired pindexPrev header params).map fun nBits => { header with nBits := nBits }
  else some header

/-- The coinbase before the witness commitment is added. -/
def coinbaseTransaction (params : Params) (nHeight nFees : Int) (script : Bytes) :
    CTransaction where
  vin := [{ prevout := ⟨0, 0xffffffff⟩
            scriptSig := Script.pushInt64 nHeight ++ [op0]
            nSequence := maxSequenceNonfinal
            scriptWitness := [] }]
  vout := [⟨BitVec.ofInt 64 (nFees + getBlockSubsidy nHeight params), script⟩]
  version := 2
  nLockTime := UInt32.ofInt (nHeight - 1)

/-- The witness reserved value. -/
def witnessNonce : Bytes := List.replicate 32 0

variable [Crypto]

/-- The output of `GenerateCoinbaseCommitment`. -/
def commitmentOutput (block : CBlock) : CTxOut where
  nValue := 0
  scriptPubKey := [opReturn, 0x24, 0xaa, 0x21, 0xa9, 0xed] ++
    hash256 ((blockWitnessMerkleRoot block).toBytes ++ witnessNonce)

section

variable (block : CBlock) (params : Params) (pindexPrev : CBlockIndex)

omit [Crypto] in
def updateUncommittedBlockStructures : CBlock :=
  match block.vtx, getWitnessCommitmentIndex block with
  | coinbase :: vtx, some _ =>
    if deploymentActiveAfter (some pindexPrev) params.segwitHeight && !coinbase.hasWitness then
      let vin := coinbase.vin.modifyHead fun txin => { txin with scriptWitness := [witnessNonce] }
      { block with vtx := { coinbase with vin := vin } :: vtx }
    else block
  | _, _ => block

def generateCoinbaseCommitment : CBlock :=
  match block.vtx, getWitnessCommitmentIndex block with
  | coinbase :: vtx, none =>
    let coinbase := { coinbase with vout := coinbase.vout ++ [commitmentOutput block] }
    updateUncommittedBlockStructures { block with vtx := coinbase :: vtx } params pindexPrev
  | _, _ => updateUncommittedBlockStructures block params pindexPrev

end

/-- `CreateNewBlock` on top of the tip, paying the given script. It fails where the required work
cannot be computed or where the validity test throws. -/
def createNewBlock (params : Params) (pindexPrev : CBlockIndex) (assembly : Assembly)
    (script : Bytes) : Except String CBlock :=
  let nHeight := pindexPrev.nHeight + 1
  let block : CBlock := { CPureBlockHeader.null with
    nVersion := assembly.nVersion
    nTime := UInt32.ofInt assembly.now
    auxpow := none
    vtx := coinbaseTransaction params nHeight assembly.nFees script :: assembly.selected }
  let block := generateCoinbaseCommitment block params pindexPrev
  let header : CBlockHeader := { block.toCBlockHeader with
    hashMerkleRoot := (blockMerkleRoot block).1
    hashPrevBlock := pindexPrev.phashBlock }
  match updateTime header params pindexPrev assembly.now with
  | none => .error "assertion failed"
  | some header =>
    match getNextWorkRequired pindexPrev header params with
    | none => .error "assertion failed"
    | some nBits =>
      match assembly.validity with
      | some text => .error ("TestBlockValidity failed: " ++ text)
      | none => .ok { header with nBits := nBits, nNonce := 0, vtx := block.vtx }

omit [Crypto] in
/-- The first output of the coinbase pays the script. -/
def CBlock.Pays (block : CBlock) (script : Bytes) : Prop :=
  (block.vtx.head?.bind fun coinbase => coinbase.vout.head?).map CTxOut.scriptPubKey = some script

section

variable {block : CBlock} {script : Bytes} (hpays : block.Pays script) (params : Params)
    (pindexPrev : CBlockIndex)
include hpays

omit [Crypto] in
lemma updateUncommittedBlockStructures_pays :
    (updateUncommittedBlockStructures block params pindexPrev).Pays script := by
  rw [updateUncommittedBlockStructures]
  split
  case h_1 coinbase vtx _ hvtx _ =>
    split
    case isTrue =>
      rw [CBlock.Pays, hvtx] at hpays
      exact hpays
    case isFalse => exact hpays
  case h_2 => exact hpays

lemma generateCoinbaseCommitment_pays :
    (generateCoinbaseCommitment block params pindexPrev).Pays script := by
  rw [generateCoinbaseCommitment]
  split
  case h_1 coinbase vtx hvtx _ =>
    -- The commitment is appended behind the paying output.
    apply updateUncommittedBlockStructures_pays
    rw [CBlock.Pays, hvtx] at hpays
    obtain ⟨txout, hfirst, hscript⟩ := Option.map_eq_some_iff.1 hpays
    have hvout : coinbase.vout.head? = some txout := hfirst
    rw [CBlock.Pays]
    simp [hvout, hscript]
  case h_2 => exact updateUncommittedBlockStructures_pays hpays params pindexPrev

end

omit [Crypto] in
lemma updateTime_hashPrevBlock {header header' : CBlockHeader} {params : Params}
    {pindexPrev : CBlockIndex}
    {now : Int} (htime : updateTime header params pindexPrev now = some header') :
    header'.hashPrevBlock = header.hashPrevBlock := by
  simp only [updateTime] at htime
  split at htime
  · obtain ⟨nBits, -, rfl⟩ := Option.map_eq_some_iff.1 htime
    split <;> rfl
  · cases htime
    split <;> rfl

lemma createNewBlock_spec {params : Params} {pindexPrev : CBlockIndex} {assembly : Assembly}
    {script : Bytes} {block : CBlock}
    (hcreate : createNewBlock params pindexPrev assembly script = .ok block) :
    block.hashPrevBlock = pindexPrev.phashBlock ∧ block.Pays script := by
  simp only [createNewBlock] at hcreate
  split at hcreate
  case h_1 => cases hcreate
  case h_2 header htime =>
    split at hcreate
    case h_1 => cases hcreate
    case h_2 nBits _ =>
      split at hcreate
      case h_1 => cases hcreate
      case h_2 =>
        cases hcreate
        refine ⟨updateTime_hashPrevBlock htime, ?_⟩
        apply generateCoinbaseCommitment_pays
        rfl

end Tidecoin
