import Tidecoin.Chain
import Tidecoin.Params

/-!
Difficulty and proof of work: `pow.cpp`. The target of a block is retargeted once per interval
before merged mining starts, and at every block over an averaging window afterwards. Signed 64-bit
factors reach the 256-bit multiplication through its `uint32_t` overload, so they are cut to 32
bits there; divisors are converted to `uint64_t`.
-/

namespace Tidecoin

open ArithUint256

def usePostAuxpowPowRules (params : Params) (candidateHeight : Int) : Bool :=
  candidateHeight ≥ params.nAuxpowStartHeight

/-- `pow_limit.bits() - 1` in unsigned arithmetic. -/
def limitBits (powLimit : ArithUint256) : Nat := (bits powLimit + (2 ^ 32 - 1)) % 2 ^ 32

def scaleTargetLegacyOverflow (target : ArithUint256) (actualTimespan targetTimespan : Int)
    (powLimit : ArithUint256) : ArithUint256 :=
  if bits target > limitBits powLimit then
    (mulUint32 (target >>> 1) actualTimespan / ofInt64 targetTimespan) <<< 1
  else mulUint32 target actualTimespan / ofInt64 targetTimespan

def legacyRetargetMayOverflow (target : ArithUint256) (actualTimespan : Int)
    (powLimit : ArithUint256) : Bool :=
  if actualTimespan ≤ 0 then false
  else
    let target := if bits target > limitBits powLimit then target >>> 1 else target
    target > BitVec.allOnes 256 / ofInt64 actualTimespan

/-- The smaller of a target and the limit. -/
def capTarget (target powLimit : ArithUint256) : ArithUint256 :=
  if target > powLimit then powLimit else target

def calculateNextWorkRequiredOld (pindexLast : CBlockIndex) (nFirstBlockTime : Int)
    (params : Params) : UInt32 :=
  if params.fPowNoRetargeting then pindexLast.nBits
  else
    let nActualTimespan := pindexLast.getBlockTime - nFirstBlockTime
    let nActualTimespan :=
      if nActualTimespan < params.nPowTargetTimespan.tdiv 4 then params.nPowTargetTimespan.tdiv 4
      else nActualTimespan
    let nActualTimespan :=
      if nActualTimespan > params.nPowTargetTimespan * 4 then params.nPowTargetTimespan * 4
      else nActualTimespan
    let bnNew := scaleTargetLegacyOverflow (setCompact pindexLast.nBits) nActualTimespan
      params.nPowTargetTimespan (uintToArith256 params.powLimit)
    getCompact (capTarget bnNew (uintToArith256 params.powLimit))

/-- The walk of the minimum-difficulty rule: past entries at the limit, back to the start of the
interval. -/
def lastNonSpecialBits (params : Params) : IndexEntry → List IndexEntry → UInt32
  | entry, [] => entry.nBits
  | entry, prev :: ancestors =>
    if entry.nHeight.tmod params.difficultyAdjustmentInterval ≠ 0 ∧
        entry.nBits = getCompact (uintToArith256 params.powLimit) then
      lastNonSpecialBits params prev ancestors
    else entry.nBits

/-- The once-per-interval rule. `none` is a failed assertion: the interval reaches below the first
entry of the chain. -/
def getNextWorkRequiredOld (pindexLast : CBlockIndex) (pblock : CBlockHeader) (params : Params) :
    Option UInt32 :=
  let interval := params.difficultyAdjustmentInterval
  if (pindexLast.nHeight + 1).tmod interval ≠ 0 then
    if params.fPowAllowMinDifficultyBlocks then
      if pblock.getBlockTime > pindexLast.getBlockTime + params.nPowTargetSpacing * 2 then
        some (getCompact (uintToArith256 params.powLimit))
      else some (lastNonSpecialBits params pindexLast.toIndexEntry pindexLast.ancestors)
    else some pindexLast.nBits
  else
    let blockstogoback := if pindexLast.nHeight + 1 ≠ interval then interval else interval - 1
    (pindexLast.getAncestor (pindexLast.nHeight - blockstogoback)).map fun pindexFirst =>
      calculateNextWorkRequiredOld pindexLast pindexFirst.getBlockTime params

def calculateNextWorkRequiredNew (bnAvg : ArithUint256) (nLastBlockTime nFirstBlockTime : Int)
    (params : Params) : UInt32 :=
  let nActualTimespan := nLastBlockTime - nFirstBlockTime
  let nActualTimespan := params.averagingWindowTimespan +
    (nActualTimespan - params.averagingWindowTimespan).tdiv 4
  let nActualTimespan :=
    if nActualTimespan < params.minActualTimespan then params.minActualTimespan
    else nActualTimespan
  let nActualTimespan :=
    if nActualTimespan > params.maxActualTimespan then params.maxActualTimespan
    else nActualTimespan
  let bnNew := mulUint32 (bnAvg / ofInt64 params.averagingWindowTimespan) nActualTimespan
  getCompact (capTarget bnNew (uintToArith256 params.powLimit))

/-- The targets of the newest `window` entries, added from the newest on. -/
def sumTargets (window : Nat) (chain : List IndexEntry) : ArithUint256 :=
  (chain.take window).foldl (fun bnTot entry => bnTot + setCompact entry.nBits) 0

/-- The minimum-difficulty rule after a fixed height: it applies to a block that comes later than
six spacings after its predecessor at `prevHeight`. -/
def minDifficultyAfterHeight (params : Params) (prevHeight nextTime prevTime : Int) : Bool :=
  match params.nPowAllowMinDifficultyBlocksAfterHeight with
  | none => false
  | some height =>
    (prevHeight % 2 ^ 32).toNat ≥ height.toNat && nextTime > prevTime + params.nPowTargetSpacing * 6

section

variable (pindexLast : CBlockIndex) (pblock : CBlockHeader) (params : Params)

/-- The per-block rule: the mean target of the window, scaled by the time between the medians at
its two ends. Its only caller has asserted that there is a predecessor, so the branch for a null
pointer is left out. -/
def getNextWorkRequiredNew : UInt32 :=
  let nProofOfWorkLimit := getCompact (uintToArith256 params.powLimit)
  if params.fPowNoRetargeting then pindexLast.nBits
  else if minDifficultyAfterHeight params pindexLast.nHeight pblock.getBlockTime
      pindexLast.getBlockTime then nProofOfWorkLimit
  else match pindexLast.chain.drop params.nPowAveragingWindow with
    | [] => nProofOfWorkLimit
    | first :: ancestors =>
      let bnAvg := sumTargets params.nPowAveragingWindow pindexLast.chain /
        ofInt64 params.nPowAveragingWindow
      let pindexFirst : CBlockIndex := ⟨first, ancestors⟩
      calculateNextWorkRequiredNew bnAvg pindexLast.getMedianTimePast
        pindexFirst.getMedianTimePast params

def getNextWorkRequired : Option UInt32 :=
  if usePostAuxpowPowRules params (pindexLast.nHeight + 1) then
    some (getNextWorkRequiredNew pindexLast pblock params)
  else getNextWorkRequiredOld pindexLast pblock params

end

/-- The bounds of the once-per-interval rule. Where the legacy product can wrap no bound exists,
and every transition is permitted. -/
def permittedLegacyTransition (params : Params) (height : Int) (oldNbits newNbits : UInt32) :
    Bool :=
  if height.tmod params.difficultyAdjustmentInterval = 0 then
    let smallestTimespan := params.nPowTargetTimespan.tdiv 4
    let largestTimespan := params.nPowTargetTimespan * 4
    let powLimit := uintToArith256 params.powLimit
    let observedNewTarget := setCompact newNbits
    if legacyRetargetMayOverflow (setCompact oldNbits) largestTimespan powLimit then true
    else
      let largestDifficultyTarget := scaleTargetLegacyOverflow (setCompact oldNbits)
        largestTimespan params.nPowTargetTimespan powLimit
      let maximumNewTarget := setCompact (getCompact (capTarget largestDifficultyTarget powLimit))
      if maximumNewTarget < observedNewTarget then false
      else
        let smallestDifficultyTarget := scaleTargetLegacyOverflow (setCompact oldNbits)
          smallestTimespan params.nPowTargetTimespan powLimit
        let minimumNewTarget :=
          setCompact (getCompact (capTarget smallestDifficultyTarget powLimit))
        !(minimumNewTarget > observedNewTarget)
  else oldNbits = newNbits

/-- The bounds of the per-block rule, with two units of slack for rounding. -/
def permittedWindowTransition (params : Params) (oldNbits newNbits : UInt32) : Bool :=
  let powLimit := uintToArith256 params.powLimit
  let oldTarget := setCompact oldNbits
  let observedNewTarget := setCompact newNbits
  let upPct := max 0 params.nPowMaxAdjustUp
  let downPct := max 0 params.nPowMaxAdjustDown
  let upNumSq := (100 - upPct) * (100 - upPct)
  let downNumSq := (100 + downPct) * (100 + downPct)
  let largestDifficultyTarget := capTarget (mulUint32 oldTarget downNumSq / ofInt64 10000) powLimit
  let smallestDifficultyTarget := mulUint32 oldTarget upNumSq / ofInt64 10000
  let maximumNewTarget := setCompact (getCompact largestDifficultyTarget) + 2
  let minimumNewTarget := setCompact (getCompact smallestDifficultyTarget)
  let minimumNewTarget :=
    if minimumNewTarget > 1 then minimumNewTarget - 2
    else if minimumNewTarget > 0 then minimumNewTarget - 1
    else minimumNewTarget
  !(observedNewTarget < minimumNewTarget) && !(observedNewTarget > maximumNewTarget)

def permittedDifficultyTransition (params : Params) (height : Int) (oldNbits newNbits : UInt32) :
    Bool :=
  if params.fPowAllowMinDifficultyBlocks then true
  else if usePostAuxpowPowRules params height then
    permittedWindowTransition params oldNbits newNbits
  else permittedLegacyTransition params height oldNbits newNbits

/-- `DeriveTarget`: the target of a compact encoding that is in range. -/
def deriveTarget (nBits : UInt32) (powLimit : Uint256) : Option ArithUint256 :=
  let compact := setCompactFlags nBits
  if compact.fNegative || compact.target = 0 || compact.fOverflow ||
      compact.target > uintToArith256 powLimit then none
  else some compact.target

/-- `CheckProofOfWork(hash, nBits, params)`, outside fuzzing builds. -/
def checkProofOfWorkHash (hash : Uint256) (nBits : UInt32) (params : Params) : Bool :=
  match deriveTarget nBits params.powLimit with
  | none => false
  | some bnTarget => !(uintToArith256 hash > bnTarget)

/-- The fixed genesis block of a regression-test chain keeps its scrypt proof at height zero. -/
def useScryptPoW (params : Params) (height : Int) : Bool :=
  (height = 0 && params.fPowGenesisScrypt) || usePostAuxpowPowRules params height

variable [Crypto]

variable (block : CBlockHeader) (params : Params)

def getPoWHashForHeight (height : Int) : Uint256 :=
  if useScryptPoW params height then block.getScryptPoWHash else block.getPoWHash

/-- `CheckProofOfWork(block, params, height)`. -/
def checkProofOfWork (height : Int) : Bool :=
  checkProofOfWorkHash (getPoWHashForHeight block params height) block.nBits params

/-- `CheckProofOfWorkAny`: either function may carry the proof when the height is unknown. -/
def checkProofOfWorkAny : Bool :=
  if checkProofOfWorkHash block.getPoWHash block.nBits params then true
  else checkProofOfWorkHash block.getScryptPoWHash block.nBits params

end Tidecoin
