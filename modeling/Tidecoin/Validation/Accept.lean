import Tidecoin.Validation.BlockManager

/-!
How headers and blocks enter the block index: `AcceptBlockHeader`, its loop over a list of headers,
`AcceptBlock` and `ProcessNewBlock` of `validation.cpp`, up to the activation of the best chain.
Anything that can fail here fails before the index or the files are changed, so the state that
follows a failure is given where the source changes something first.
-/

namespace Tidecoin

open Lib

/-- `ChainstateManager`, with one chainstate: the tip stands for the active chain. -/
structure ChainstateManager where
  blockman : BlockManager
  bestHeader : Option CBlockIndex
  activeTip : Option CBlockIndex

namespace ChainstateManager

section

variable (chainman : ChainstateManager)

def activeHeight : Int :=
  match chainman.activeTip with
  | none => -1
  | some tip => tip.nHeight

/-- `RecalculateBestHeader`: the valid entry with the most work, from the tip on. -/
def recalculateBestHeader : ChainstateManager :=
  { chainman with
    bestHeader := chainman.blockman.blockIndex.foldl (fun best pindex =>
      if !chainman.blockman.isFailed pindex && best.all fun header => header.nChainWork <
        pindex.nChainWork
      then some pindex else best) chainman.activeTip }

/-- `InvalidBlockFound`: the entry and all that descend from it are marked. -/
def invalidBlockFound (pindex : CBlockIndex) (invalid : BlockInvalid) : ChainstateManager :=
  if invalid.result = .mutated then chainman
  else
    let descends (entry : CBlockIndex) : Bool := entry.getAncestor pindex.nHeight = some pindex
    let marked := { chainman with
      blockman := chainman.blockman.markFailed fun hash =>
        (chainman.blockman.status hash).failedValid || hash = pindex.phashBlock ||
          (chainman.blockman.lookupBlockIndex hash).any descends }
    if chainman.bestHeader.any descends then marked.recalculateBestHeader else marked

lemma invalidBlockFound_spec (pindex : CBlockIndex) (invalid : BlockInvalid) :
    (chainman.invalidBlockFound pindex invalid).activeTip = chainman.activeTip ∧
      ∃ failed, (chainman.invalidBlockFound pindex invalid).blockman =
        chainman.blockman.markFailed failed := by
  rw [invalidBlockFound]
  split
  · exact ⟨rfl, fun hash => (chainman.blockman.status hash).failedValid, rfl⟩
  · dsimp only
    split
    · exact ⟨rfl, _, rfl⟩
    · exact ⟨rfl, _, rfl⟩

end

variable [Crypto]

/-- `AddToBlockIndex`: a known hash keeps its entry. -/
def addToBlockIndex (chainman : ChainstateManager) (block : CBlockHeader) :
    ChainstateManager × CBlockIndex :=
  match chainman.blockman.lookupBlockIndex block.getHash with
  | some pindex => (chainman, pindex)
  | none =>
    let pindexNew := chainman.blockman.newEntry block
    ({ chainman with
        blockman := chainman.blockman.insertEntry pindexNew
        bestHeader :=
          if chainman.bestHeader.all fun header => header.nChainWork < pindexNew.nChainWork
          then some pindexNew else chainman.bestHeader }, pindexNew)

/-- What `AcceptBlockHeader` returns for an accepted header: the entry, and whether it checked the
work of a header without merged mining. -/
structure AcceptedHeader where
  chainman : ChainstateManager
  pindex : CBlockIndex
  ordinaryHeaderChecked : Bool

/-- The checks of a header that is not in the index. The work is not checked again if it was checked
at the very height the header has on top of its predecessor. -/
def checkNewHeader (params : Params) (chainman : ChainstateManager) (block : CBlockHeader)
    (proofCheckedHeight : Option Int) (now : Int) : Except BlockInvalid Bool :=
  match chainman.blockman.lookupBlockIndex block.hashPrevBlock with
  | none => .error ⟨.missingPrev, "prev-blk-not-found", ""⟩
  | some pindexPrev => do
      let height := pindexPrev.nHeight + 1
      require (chainman.blockman.isFailed pindexPrev = false) ⟨.invalidPrev, "bad-prevblk", ""⟩
      if proofCheckedHeight ≠ some height then
        checkBlockHeader block params true (some height)
      contextualCheckBlockHeader block params pindexPrev now
      return (proofCheckedHeight ≠ some height && !block.isAuxpow)

/-- The end of `AcceptBlockHeader`. -/
def storeHeader (chainman : ChainstateManager) (block : CBlockHeader) (minPowChecked : Bool)
    (ordinaryHeaderChecked : Bool) : Except BlockInvalid AcceptedHeader :=
  if minPowChecked then
    let (chainman, pindex) := chainman.addToBlockIndex block
    .ok ⟨chainman, pindex, ordinaryHeaderChecked⟩
  else .error ⟨.headerLowWork, "too-little-chainwork", ""⟩

def acceptBlockHeader (params : Params) (chainman : ChainstateManager) (block : CBlockHeader)
    (minPowChecked : Bool) (proofCheckedHeight : Option Int) (now : Int) :
    Except BlockInvalid AcceptedHeader :=
  if block.getHash = params.hashGenesisBlock then chainman.storeHeader block minPowChecked false
  else match chainman.blockman.lookupBlockIndex block.getHash with
    | some pindex =>
      if chainman.blockman.isFailed pindex then .error ⟨.cachedInvalid, "duplicate-invalid", ""⟩
      else .ok ⟨chainman, pindex, false⟩
    | none => do
        let ordinaryHeaderChecked ← chainman.checkNewHeader params block proofCheckedHeight now
        chainman.storeHeader block minPowChecked ordinaryHeaderChecked

variable {chainman : ChainstateManager} {block : CBlockHeader} {proofCheckedHeight : Option Int}

lemma checkNewHeader_eq_ok {params : Params} {now : Int} {ordinary : Bool}
    (hchecks : chainman.checkNewHeader params block proofCheckedHeight now = .ok ordinary) :
    ∃ pindexPrev, chainman.blockman.lookupBlockIndex block.hashPrevBlock = some pindexPrev ∧
      (proofCheckedHeight = some (pindexPrev.nHeight + 1) ∨
        checkHeaderProofOfWork block params (some (pindexPrev.nHeight + 1))) := by
  rw [checkNewHeader] at hchecks
  cases hprev : chainman.blockman.lookupBlockIndex block.hashPrevBlock with
  | none =>
    rw [hprev] at hchecks
    cases hchecks
  | some pindexPrev =>
    rw [hprev] at hchecks
    obtain ⟨-, -, hwork⟩ := bind_eq_ok.1 hchecks
    refine ⟨pindexPrev, rfl, ?_⟩
    by_cases hheight : proofCheckedHeight = some (pindexPrev.nHeight + 1)
    · exact .inl hheight
    · rw [if_pos hheight] at hwork
      obtain ⟨⟨⟩, hheader, -⟩ := bind_eq_ok.1 hwork
      exact .inr ((checkBlockHeader_eq_ok_iff _ _ _).1 hheader)

/-- What an accepted header does to the index. A new entry is made by `newEntry`; unless it is the
genesis block, its work was checked at its own height, here or by the caller. -/
inductive HeaderAccepted (params : Params) (chainman : ChainstateManager) (block : CBlockHeader)
    (proofCheckedHeight : Option Int) (accepted : AcceptedHeader) : Prop
  | known (hsame : accepted.chainman = chainman)
      (hlookup : chainman.blockman.lookupBlockIndex block.getHash = some accepted.pindex)
  | added (hunknown : chainman.blockman.lookupBlockIndex block.getHash = none)
      (hentry : accepted.pindex = chainman.blockman.newEntry block)
      (hblockman : accepted.chainman.blockman = chainman.blockman.insertEntry accepted.pindex)
      (htip : accepted.chainman.activeTip = chainman.activeTip)
      (hchecked : block.getHash = params.hashGenesisBlock ∨
        ∃ pindexPrev, chainman.blockman.lookupBlockIndex block.hashPrevBlock = some pindexPrev ∧
          (proofCheckedHeight = some (pindexPrev.nHeight + 1) ∨
            checkHeaderProofOfWork block params (some (pindexPrev.nHeight + 1)) = true))

section

variable {params : Params} {minPowChecked : Bool} {accepted : AcceptedHeader}

lemma storeHeader_eq_ok {ordinary : Bool}
    (hstore : chainman.storeHeader block minPowChecked ordinary = .ok accepted)
    (hchecked : block.getHash = params.hashGenesisBlock ∨ ∃ pindexPrev,
      chainman.blockman.lookupBlockIndex block.hashPrevBlock = some pindexPrev ∧
        (proofCheckedHeight = some (pindexPrev.nHeight + 1) ∨
          checkHeaderProofOfWork block params (some (pindexPrev.nHeight + 1)))) :
    HeaderAccepted params chainman block proofCheckedHeight accepted := by
  rw [storeHeader, addToBlockIndex] at hstore
  cases minPowChecked with
  | false => cases hstore
  | true =>
    cases hlookup : chainman.blockman.lookupBlockIndex block.getHash with
    | some pindex =>
      rw [hlookup] at hstore
      cases hstore
      exact .known rfl hlookup
    | none =>
      rw [hlookup] at hstore
      cases hstore
      exact .added hlookup rfl rfl rfl hchecked

lemma acceptBlockHeader_eq_ok {now : Int}
    (haccept : chainman.acceptBlockHeader params block minPowChecked proofCheckedHeight now =
      .ok accepted) :
    HeaderAccepted params chainman block proofCheckedHeight accepted := by
  rw [acceptBlockHeader] at haccept
  split at haccept
  case isTrue hgenesis => exact storeHeader_eq_ok haccept (.inl hgenesis)
  case isFalse =>
    cases hlookup : chainman.blockman.lookupBlockIndex block.getHash with
    | some pindex =>
      simp only [hlookup] at haccept
      split at haccept
      · cases haccept
      · cases haccept
        exact .known rfl hlookup
    | none =>
      simp only [hlookup] at haccept
      obtain ⟨ordinary, hchecks, hstore⟩ := bind_eq_ok.1 haccept
      exact storeHeader_eq_ok hstore (.inr (checkNewHeader_eq_ok hchecks))

end

/-- `ProcessNewBlockHeadersImpl`: the headers before the first failing one stay accepted. With the
state it returns the last accepted entry and the failure. -/
def processNewBlockHeadersImpl (params : Params) (minPowChecked : Bool) (now : Int) :
    ChainstateManager → List CBlockHeader → (proofStartHeight : Option Int) →
      (pindexLast : Option CBlockIndex) →
      ChainstateManager × Option CBlockIndex × Option BlockInvalid
  | chainman, [], _, pindexLast => (chainman, pindexLast, none)
  | chainman, header :: headers, proofStartHeight, pindexLast =>
    match chainman.acceptBlockHeader params header minPowChecked proofStartHeight now with
    | .error invalid => (chainman, pindexLast, some invalid)
    | .ok accepted => processNewBlockHeadersImpl params minPowChecked now accepted.chainman
        headers (proofStartHeight.map (· + 1)) (some accepted.pindex)

section

variable (params : Params) (chainman : ChainstateManager) (headers : List CBlockHeader)
include headers

def processNewBlockHeaders (minPowChecked : Bool) (now : Int) :
    ChainstateManager × Option CBlockIndex × Option BlockInvalid :=
  processNewBlockHeadersImpl params minPowChecked now chainman headers none none

def processNewBlockHeadersPrechecked (startHeight : Int) (now : Int) :
    ChainstateManager × Option CBlockIndex × Option BlockInvalid :=
  processNewBlockHeadersImpl params true now chainman headers (some startHeight) none

end

omit [Crypto] in
/-- The conditions under which `AcceptBlock` leaves a block aside that it did not ask for. -/
def skipsUnrequested (chainman : ChainstateManager) (minimumChainWork : ArithUint256)
    (pindex : CBlockIndex) : Bool :=
  (chainman.blockman.status pindex.phashBlock).nTx ≠ 0 ||
    chainman.activeTip.any (fun tip => pindex.nChainWork < tip.nChainWork) ||
    pindex.nHeight > chainman.activeHeight + minBlocksToKeep ||
    pindex.nChainWork < minimumChainWork

/-- The full check of a block `AcceptBlock` makes before it is stored. -/
def checkBlockToStore (params : Params) (block : CBlock) (pindex : CBlockIndex)
    (ordinaryHeaderChecked : Bool) (cache : BlockCache) : Except BlockInvalid Unit :=
  match checkBlockImpl block params true true (some pindex.nHeight) ordinaryHeaderChecked cache with
  | (.error invalid, _) => .error invalid
  | (.ok _, cache) => (contextualCheckBlock block params pindex.pprev cache).1

section

variable (chainman : ChainstateManager) (block : CBlock) (pindex : CBlockIndex)

omit [Crypto] in
/-- The block is written and its entry gets the position. A block that cannot be encoded is a
fatal error of the node. -/
def storeBlock : ChainstateManager :=
  match chainman.blockman.writeBlock block pindex.nHeight with
  | none => chainman
  | some (pos, blockman) =>
    { chainman with blockman := blockman.receivedBlockTransactions block pindex pos }

omit [Crypto] in
@[simp] lemma storeBlock_blockIndex :
    (chainman.storeBlock block pindex).blockman.blockIndex = chainman.blockman.blockIndex := by
  rw [storeBlock, BlockManager.writeBlock]
  cases block.serialize true with
  | none => rfl
  | some bytes => rfl

end

variable (params : Params)

/-- `AcceptBlock`, without the pruning it can start. -/
def acceptBlock (minimumChainWork : ArithUint256) (chainman : ChainstateManager)
    (block : CBlock) (fRequested minPowChecked : Bool) (cache : BlockCache) (now : Int) :
    ChainstateManager × Option BlockInvalid :=
  match chainman.acceptBlockHeader params block.toCBlockHeader minPowChecked none now with
  | .error invalid => (chainman, some invalid)
  | .ok accepted =>
    let chainman := accepted.chainman
    let pindex := accepted.pindex
    if (chainman.blockman.status pindex.phashBlock).haveData then (chainman, none)
    else if !fRequested && chainman.skipsUnrequested minimumChainWork pindex then (chainman, none)
    else match checkBlockToStore params block pindex accepted.ordinaryHeaderChecked cache with
      | .error invalid => (chainman.invalidBlockFound pindex invalid, some invalid)
      | .ok _ => (chainman.storeBlock block pindex, none)

/-- The height `ProcessNewBlock` checks the work of a block at, if it is known. -/
def heightToCheck (chainman : ChainstateManager) (block : CBlockHeader) : Option Int :=
  if block.getHash = params.hashGenesisBlock then some 0
  else (chainman.blockman.lookupBlockIndex block.hashPrevBlock).map fun prev => prev.nHeight + 1

/-- `ProcessNewBlock`, up to the activation of the best chain. -/
def processNewBlock (minimumChainWork : ArithUint256)
    (chainman : ChainstateManager) (block : CBlock) (forceProcessing minPowChecked : Bool)
    (now : Int) : ChainstateManager × Option BlockInvalid :=
  match checkBlock block params true true (chainman.heightToCheck params block.toCBlockHeader)
      BlockCache.fresh with
  | (.error invalid, _) => (chainman, some invalid)
  | (.ok _, cache) =>
    chainman.acceptBlock params minimumChainWork block forceProcessing minPowChecked cache now

/-- What `ProcessNewBlock` does to the chain state: nothing, or it accepts the header and then
leaves the block aside, marks it as invalid or stores it. -/
theorem processNewBlock_cases {P : ChainstateManager → Prop} {minimumChainWork : ArithUint256}
    {block : CBlock} {forceProcessing minPowChecked : Bool} {now : Int}
    (hsame : P chainman)
    (haccepts : ∀ accepted, HeaderAccepted params chainman block.toCBlockHeader none accepted →
      P accepted.chainman ∧ (∀ invalid, P (accepted.chainman.invalidBlockFound accepted.pindex
        invalid)) ∧
        P (accepted.chainman.storeBlock block accepted.pindex)) :
    P (chainman.processNewBlock params minimumChainWork block forceProcessing minPowChecked
      now).1 := by
  simp only [processNewBlock]
  split
  case h_1 => exact hsame
  case h_2 =>
    simp only [acceptBlock]
    split
    case h_1 => exact hsame
    case h_2 accepted haccept =>
      obtain ⟨haside, hinvalid, hstored⟩ := haccepts accepted (acceptBlockHeader_eq_ok haccept)
      split
      · exact haside
      · split
        · exact haside
        · split
          case h_1 invalid _ => exact hinvalid invalid
          case h_2 => exact hstored

end ChainstateManager

end Tidecoin
