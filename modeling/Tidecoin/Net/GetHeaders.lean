import Tidecoin.Net.Headers
import Tidecoin.Validation.Storage

/-!
The reply to a `getheaders` message. The header of a merged-mined block is read from its block file,
and a read that fails leaves the null header in the reply: the headers a node serves are those of
the entries exactly as long as the data of the merged-mined ones has not been pruned.
-/

namespace Tidecoin

open Lib List BlockManager

def maxLocatorSz : Nat := 101

/-- A `getheaders` message, with the `Download` permission of the peer and the rule by which
`BlockRequestAllowed` lets an entry through that is not in the active chain. -/
structure GetHeaders where
  locator : List Uint256
  hashStop : Uint256
  download : Bool
  relaysStale : CBlockIndex → Bool

namespace ChainstateManager

def activeChainNext (chainman : ChainstateManager) (pindex : CBlockIndex) : Option CBlockIndex :=
  if chainman.activeChainContains pindex then
    chainman.activeTip.bind fun tip => tip.getAncestor (pindex.nHeight + 1)
  else none

def findForkInGlobalIndex (chainman : ChainstateManager) : List Uint256 → Option CBlockIndex
  | [] => chainman.activeTip.bind fun tip => tip.getAncestor 0
  | hash :: locator =>
    match chainman.blockman.lookupBlockIndex hash with
    | none => chainman.findForkInGlobalIndex locator
    | some pindex =>
      if chainman.activeChainContains pindex then some pindex
      else if pindex.getAncestor chainman.activeHeight = chainman.activeTip then
        chainman.activeTip
      else chainman.findForkInGlobalIndex locator

/-- The loop over the active chain that fills the reply, with a bound on the headers after the
first one. -/
def servedFrom (chainman : ChainstateManager) (hashStop : Uint256) :
    (nLimit : Nat) → CBlockIndex → List CBlockIndex
  | 0, pindex => [pindex]
  | nLimit + 1, pindex =>
    pindex :: if pindex.phashBlock = hashStop then []
      else match chainman.activeChainNext pindex with
        | none => []
        | some next => chainman.servedFrom hashStop nLimit next

/-- The entries whose headers the reply to a `getheaders` message holds; none if there is no
reply. -/
def servedEntries (opts : NodeOptions) (chainman : ChainstateManager) (request : GetHeaders) :
    Option (List CBlockIndex) :=
  let serve := chainman.servedFrom request.hashStop (opts.maxHeadersResult - 1)
  if request.locator.length > maxLocatorSz then none
  else match chainman.activeTip with
    | none => some []
    | some tip =>
      if tip.nChainWork < opts.minimumChainWork ∧ request.download = false then some []
      else if request.locator = [] then
        match chainman.blockman.lookupBlockIndex request.hashStop with
        | none => none
        | some pindex =>
          if chainman.activeChainContains pindex || request.relaysStale pindex then
            some (serve pindex)
          else none
      else match (chainman.findForkInGlobalIndex request.locator).bind
          chainman.activeChainNext with
        | none => some []
        | some pindex => some (serve pindex)

variable [Crypto]

/-- The headers of the reply. -/
def getHeadersReply (opts : NodeOptions) (chainman : ChainstateManager) (request : GetHeaders) :
    Option (List CBlockHeader) :=
  (chainman.servedEntries opts request).map fun entries =>
    entries.map chainman.blockman.getBlockHeader

variable {params : Params} {chainman : ChainstateManager}

variable (hsound : chainman.Sound params)
include hsound

lemma Sound.activeChainNext {pindex next : CBlockIndex}
    (hnext : chainman.activeChainNext pindex = some next) : HashedChain next.chain := by
  rw [ChainstateManager.activeChainNext] at hnext
  split at hnext
  · obtain ⟨tip, htip, hancestor⟩ := Option.bind_eq_some_iff.1 hnext
    exact (hsound.tip tip htip).getAncestor hancestor
  · cases hnext

lemma Sound.servedFrom {hashStop : Uint256} {nLimit : Nat} {pindex : CBlockIndex}
    (hpindex : HashedChain pindex.chain) :
    ∀ entry ∈ chainman.servedFrom hashStop nLimit pindex, HashedChain entry.chain := by
  induction nLimit generalizing pindex with
  | zero =>
    intro entry hentry
    rw [mem_singleton.1 hentry]
    exact hpindex
  | succ nLimit ih =>
    intro entry hentry
    rcases mem_cons.1 hentry with rfl | hlater
    · exact hpindex
    · split at hlater
      · cases hlater
      · split at hlater
        · cases hlater
        · next hnext => exact ih (hsound.activeChainNext hnext) entry hlater

lemma Sound.servedEntries {opts : NodeOptions} {request : GetHeaders}
    {entries : List CBlockIndex} (hserved : chainman.servedEntries opts request = some entries) :
    ∀ entry ∈ entries, HashedChain entry.chain := by
  have hnone : ∀ entry ∈ ([] : List CBlockIndex), HashedChain entry.chain :=
    fun entry hentry => (nomatch hentry)
  rw [ChainstateManager.servedEntries] at hserved
  split at hserved
  · cases hserved
  · split at hserved
    · cases hserved
      exact hnone
    · split at hserved
      · cases hserved
        exact hnone
      · split at hserved
        · split at hserved
          · cases hserved
          · next pindex hlookup =>
              split at hserved
              · cases hserved
                exact hsound.servedFrom (hsound.hashed pindex (lookupBlockIndex_eq_some hlookup).1)
              · cases hserved
        · split at hserved
          · cases hserved
            exact hnone
          · next pindex hnext =>
              cases hserved
              obtain ⟨fork, -, hfork⟩ := Option.bind_eq_some_iff.1 hnext
              exact hsound.servedFrom (hsound.activeChainNext hfork)

lemma Sound.getBlockHeader_getHash_iff {pindex : CBlockIndex} (hpindex : HashedChain pindex.chain) :
    (chainman.blockman.getBlockHeader pindex).getHash = pindex.phashBlock ↔
      (pindex.getBlockHeader.isAuxpow → (chainman.blockman.status pindex.phashBlock).haveData ∨
          pindex.phashBlock = CPureBlockHeader.null.getHash) := by
  rw [getBlockHeader]
  cases hflag : pindex.getBlockHeader.isAuxpow with
  | false =>
    exact ⟨fun _ hflagged => (nomatch hflagged), fun _ => hpindex.1⟩
  | true =>
    rw [if_pos rfl, readBlockHeaderFromDisk, getBlockPos]
    cases hdata : (chainman.blockman.status pindex.phashBlock).haveData with
    | true =>
      obtain ⟨block, hread, hhash⟩ := hsound.stored.readable pindex.phashBlock hdata
      rw [dataPos] at hread
      simp only [if_true, hread]
      exact ⟨fun _ _ => .inl trivial, fun _ => hhash⟩
    | false =>
      simp only [readRawBlock, FlatFilePos.null, storageHeaderBytes,
        Bool.false_eq_true, if_false, false_or, forall_const]
      exact eq_comm

end ChainstateManager

namespace Node

variable [Crypto] {opts : NodeOptions} {node : Node}

lemma sound_step (hsound : node.chainman.Sound opts.params) (event : NodeEvent) :
    (node.step opts event).chainman.Sound opts.params := by
  cases event with
  | headers peer context headers =>
    rw [Node.step]
    split
    · exact hsound
    · rcases node.processHeadersMessage_chainman opts peer context headers with
        hsame | ⟨batch, startHeight, hresult⟩
      · rwa [hsame]
      · rw [hresult]
        exact hsound.processNewBlockHeadersImpl
  | newHeaders headers minPowChecked now => exact hsound.processNewBlockHeadersImpl
  | newBlock block forceProcessing minPowChecked now => exact hsound.processNewBlock
  | chainChange tip bestHeader failed =>
    refine ⟨hsound.genesis, hsound.hashed, fun pindex htip => ?_, hsound.stored.markFailed failed⟩
    exact hsound.hashed pindex (lookupBlockIndex_eq_some htip).1
  | prune lastPrune selected =>
    exact hsound.of_blockman (findFilesToPrune_blockIndex _ _ _ _) rfl
      (hsound.stored.findFilesToPrune _ _ _)
  | disconnect peer => exact hsound

lemma sound_run (hsound : node.chainman.Sound opts.params) (events : List NodeEvent) :
    (node.run opts events).chainman.Sound opts.params := by
  induction events generalizing node with
  | nil => exact hsound
  | cons event events ih => exact ih (sound_step hsound event)

/-- In every state a node can reach, the headers of a reply to `getheaders` have the hashes of the
entries they stand for if and only if the data of every merged-mined entry among these is still
there. (An entry whose hash is that of the null header is served correctly by accident.) -/
theorem served_hashes_iff (hsound : node.chainman.Sound opts.params) (events : List NodeEvent)
    {request : GetHeaders} {entries : List CBlockIndex} {headers : List CBlockHeader}
    (hserved : (node.run opts events).chainman.servedEntries opts request = some entries)
    (hreply : (node.run opts events).chainman.getHeadersReply opts request = some headers) :
    headers.map (fun header => header.getHash) = entries.map (fun pindex => pindex.phashBlock) ↔
      ∀ pindex ∈ entries, pindex.getBlockHeader.isAuxpow = true →
        ((node.run opts events).chainman.blockman.status pindex.phashBlock).haveData = true ∨
          pindex.phashBlock = CPureBlockHeader.null.getHash := by
  have hreached := sound_run hsound events
  rw [ChainstateManager.getHeadersReply, hserved, Option.map_some, Option.some_inj] at hreply
  rw [← hreply, map_map, map_inj_left]
  refine forall₂_congr fun pindex hpindex => ?_
  exact hreached.getBlockHeader_getHash_iff (hreached.servedEntries hserved pindex hpindex)

omit [Crypto] in
/-- The coinbase of a block at a height. -/
def coinbaseAt (height : Nat) : CTransaction where
  vin := [⟨⟨0, 0xffffffff⟩, Script.pushInt64 height ++ [op0], 0xffffffff, []⟩]
  vout := [⟨0, [op1]⟩]
  version := 1
  nLockTime := 0

omit [Crypto] in
/-- A proof of more than 64 KB: the coinbase of the parent block has a long output. -/
def largeProof : CAuxPow :=
  { CAuxPow.sampleProof 0 with
    coinbaseTx := { CAuxPow.sampleCoinbase with vout := [⟨0, List.replicate 64700 opReturn⟩] } }

/-- The first block of the chain. -/
def tallGenesis : CBlock where
  nVersion := 1
  hashPrevBlock := 0
  hashMerkleRoot := (coinbaseAt 0).getHash
  nTime := 1600000000
  nBits := 0x200f0f0f
  nNonce := 0
  auxpow := none
  vtx := [coinbaseAt 0]

/-- The block that follows an entry of the chain. The block at height 1 is merged-mined. -/
def tallNext (pindexPrev : CBlockIndex) (height : Nat) : CBlock where
  nVersion := if height = 1 then 0x00080104 else 4
  hashPrevBlock := pindexPrev.phashBlock
  hashMerkleRoot := (coinbaseAt height).getHash
  nTime := pindexPrev.nTime + 60
  nBits := pindexPrev.nBits
  nNonce := 0
  auxpow := if height = 1 then some largeProof else none
  vtx := [coinbaseAt height]

/-- The chain up to a height. -/
def tallChain : Nat → CBlockIndex
  | 0 => BlockManager.newEntry ⟨[], fun _ => .initial, [], [], true⟩ tallGenesis.toCBlockHeader
  | height + 1 =>
    (tallChain height).extend (tallNext (tallChain height) (height + 1)).toCBlockHeader

/-- The block at a height. -/
def tallBlock : Nat → CBlock
  | 0 => tallGenesis
  | height + 1 => tallNext (tallChain height) (height + 1)

lemma tallChain_phashBlock (height : Nat) :
    (tallChain height).phashBlock = (tallBlock height).getHash := by
  cases height with
  | zero => rfl
  | succ height => rfl

lemma tallChain_nHeight (height : Nat) : (tallChain height).nHeight = height := by
  induction height with
  | zero => rfl
  | succ height ih =>
    rw [tallChain, CBlockIndex.extend, ih]
    rfl

lemma tallChain_hashed (height : Nat) : HashedChain (tallChain height).chain := by
  induction height with
  | zero => exact ⟨rfl, trivial⟩
  | succ height ih =>
    refine ⟨?_, ih⟩
    rfl

lemma tallChain_drop {height height' : Nat} (hle : height ≤ height') :
    (tallChain height').chain.drop (height' - height) = (tallChain height).chain := by
  induction hle with
  | refl => rw [Nat.sub_self, drop_zero]
  | @step height' hle ih =>
    have hlater : height' + 1 - height = height' - height + 1 := by
      have : height ≤ height' := hle
      omega
    rw [Nat.succ_eq_add_one, hlater, tallChain, CBlockIndex.extend_chain, drop_succ_cons, ih]

lemma tallChain_getAncestor {height height' : Nat} (hle : height ≤ height') :
    (tallChain height').getAncestor height = some (tallChain height) := by
  have hdrop := tallChain_drop hle
  rw [CBlockIndex.getAncestor, if_neg (by rw [tallChain_nHeight]; omega), tallChain_nHeight,
    show ((height' : Int) - height).toNat = height' - height by omega, hdrop]
  rfl

omit [Crypto] in
/-- The position of the block at a height: the block at height 1 fills the first file. -/
def tallPos (height : Nat) : FlatFilePos :=
  if height ≤ 1 then ⟨0, 8 + 200 * height⟩ else ⟨1, 8 + 200 * (height - 2)⟩

omit [Crypto] in
lemma largeProof_length : largeProof.serialize.length ≤ 65000 := by
  have hlength : ∀ script : Bytes, ({ CAuxPow.sampleProof 0 with coinbaseTx :=
      { CAuxPow.sampleCoinbase with vout := [⟨0, script⟩] } } : CAuxPow).serialize.length ≤
        script.length + 300 := by
    intro script
    have hheader : pchMergedMiningHeader.length = 4 := rfl
    have hscript : (writeCompactSize script.length).length ≤ 9 := by
      rw [writeCompactSize]
      split_ifs <;> simp
    have hsmall : (writeCompactSize 0).length = 1 ∧ (writeCompactSize 1).length = 1 ∧
        (writeCompactSize 44).length = 1 :=
      ⟨rfl, rfl, rfl⟩
    simp only [CAuxPow.serialize, CAuxPow.sampleProof, CAuxPow.sampleCoinbase,
      CTransaction.serialize, CTransaction.hasWitness, serVector, CTransaction.serTxIn,
      CTransaction.serTxOut, serBytes, serUint32, CPureBlockHeader.serialize, any_cons, any_nil,
      isEmpty_nil, Bool.not_true, Bool.or_false, Bool.and_false, Bool.false_eq_true, if_false,
      length_append, length_cons, length_nil, length_reverse, flatMap_cons, flatMap_nil,
      natToLE_length, Uint256.toBytes_length, hheader, Nat.zero_add, Nat.reduceAdd, hsmall]
    omega
  have hlarge := hlength (replicate 64700 opReturn)
  rwa [length_replicate] at hlarge

/-- The blocks fit into their places: all but the one at height 1 are short. -/
lemma tallBlock_size {height : Nat} (hheight : height < 290) (pos : FlatFilePos) :
    BlockRecord.size (pos, tallBlock height) ≤ if height = 1 then 65292 else 192 := by
  have hcoinbase : ∀ height < 290, ((coinbaseAt height).serialize true).length ≤ 111 := by
    decide +kernel
  obtain ⟨hvtx, hauxpow⟩ : (tallBlock height).vtx = [coinbaseAt height] ∧
      (tallBlock height).auxpow = if height = 1 then some largeProof else none := by
    cases height with
    | zero => exact ⟨rfl, rfl⟩
    | succ height => exact ⟨rfl, rfl⟩
  have hbody : (serVector (fun tx => tx.serialize true) [coinbaseAt height]).length ≤ 112 := by
    have hlength := hcoinbase height hheight
    rw [serVector, length_append, flatMap_singleton]
    change 1 + _ ≤ 112
    omega
  have hpure : (tallBlock height).toCPureBlockHeader.serialize.length = 80 := by
    simp [CPureBlockHeader.serialize, serUint32]
  have hproof := largeProof_length
  rw [BlockRecord.size, CBlock.serialize, CBlockHeader.serialize, hvtx, hauxpow]
  by_cases hone : height = 1
  · rw [if_pos hone, if_pos hone]
    split
    all_goals
      simp only [Option.map_some, Option.getD_some, length_append]
      omega
  · rw [if_neg hone, if_neg hone]
    split
    · simp
    · simp only [Option.map_some, Option.getD_some, length_append]
      omega

/-- The entries up to height 289. -/
def tallIndex : List CBlockIndex := (List.range 290).map tallChain

/-- Every block of the chain is stored. -/
def tallStatus (hash : Uint256) : EntryStatus :=
  match tallIndex.find? fun pindex => pindex.phashBlock = hash with
  | none => EntryStatus.initial
  | some pindex =>
    let pos := tallPos pindex.nHeight.toNat
    ⟨true, false, 1, pos.nFile, pos.nPos⟩

/-- A node in the test-only mode of small block files whose active chain has 290 blocks. -/
def tallNode : Node where
  chainman :=
    { blockman :=
        { blockIndex := tallIndex
          status := tallStatus
          blockfileInfo := [⟨2, 65500, 0, 1⟩, ⟨288, 57608, 2, 289⟩]
          records := (List.range 290).map fun height => (tallPos height, tallBlock height)
          fastPrune := true }
      bestHeader := some (tallChain 289)
      activeTip := some (tallChain 289) }
  headersSync := fun _ => none

/-- The regression test network with merged mining from height 1 on. -/
def tallOptions : NodeOptions where
  params := { regTestParams 1 with hashGenesisBlock := (tallChain 0).phashBlock }
  minimumChainWork := 0
  maxHeadersResult := 2000

lemma tallStatus_haveData {hash : Uint256} (hdata : (tallStatus hash).haveData) :
    ∃ height < 290, (tallBlock height).getHash = hash ∧
      tallNode.chainman.blockman.dataPos hash = tallPos height := by
  rw [tallStatus] at hdata
  cases hfind : tallIndex.find? fun pindex => pindex.phashBlock = hash with
  | none =>
    rw [hfind] at hdata
    cases hdata
  | some pindex =>
    obtain ⟨height, hheight, rfl⟩ := mem_map.1 (mem_of_find?_eq_some hfind)
    have hfound := find?_some hfind
    refine ⟨height, mem_range.1 hheight, ?_, ?_⟩
    · rw [← tallChain_phashBlock]
      exact of_decide_eq_true hfound
    · change (⟨(tallStatus hash).nFile, (tallStatus hash).nDataPos⟩ : FlatFilePos) = _
      rw [tallStatus, hfind]
      change tallPos (tallChain height).nHeight.toNat = tallPos height
      rw [tallChain_nHeight, Int.toNat_natCast]

lemma tallNode_stored : tallNode.chainman.blockman.Stored := by
  have hrecords : tallNode.chainman.blockman.records =
      (range 290).map fun height => (tallPos height, tallBlock height) := rfl
  refine ⟨by simp [tallNode], ?_, ?_, fun hash hdata => ?_⟩
  · intro record hmem
    rw [hrecords] at hmem
    obtain ⟨height, hheight, rfl⟩ := mem_map.1 hmem
    have hlt := mem_range.1 hheight
    have hsize := tallBlock_size hlt (tallPos height)
    rw [BlockRecord.Within, BlockRecord.stop]
    generalize BlockRecord.size _ = size at *
    rw [tallPos, storageHeaderBytes]
    split
    · refine ⟨0, ⟨2, 65500, 0, 1⟩, rfl, rfl, ?_⟩
      split at hsize <;> dsimp only <;> omega
    · refine ⟨1, ⟨288, 57608, 2, 289⟩, rfl, rfl, ?_⟩
      rw [if_neg (by omega)] at hsize
      dsimp only
      omega
  · rw [hrecords, pairwise_map]
    refine pairwise_lt_range.imp_of_mem fun {height height'} hheight _ hlt => ?_
    have hsize := tallBlock_size (mem_range.1 hheight) (tallPos height)
    rw [BlockRecord.apart_iff, BlockRecord.start, BlockRecord.stop, BlockRecord.start,
      BlockRecord.stop]
    generalize BlockRecord.size (tallPos height, _) = size at *
    rw [tallPos, tallPos, storageHeaderBytes]
    split <;> split <;> dsimp only <;> intro hfile
    · rw [if_neg (by omega)] at hsize
      omega
    · cases hfile
    · omega
    · rw [if_neg (by omega)] at hsize
      omega
  · obtain ⟨height, hheight, hhash, hpos⟩ := tallStatus_haveData hdata
    refine ⟨tallBlock height, ?_, hhash⟩
    rw [hpos, hrecords]
    exact mem_map_of_mem (mem_range.2 hheight)

lemma tallNode_sound : tallNode.chainman.Sound tallOptions.params := by
  refine ⟨?_, ?_, ?_, tallNode_stored⟩
  · intro hnone
    have hgenesis := find?_eq_none.1 hnone (tallChain 0) (mem_map_of_mem (mem_range.2 (by decide)))
    exact hgenesis (decide_eq_true rfl)
  · intro pindex hpindex
    obtain ⟨height, -, rfl⟩ := mem_map.1 hpindex
    exact tallChain_hashed height
  · rintro tip ⟨⟩
    exact tallChain_hashed 289

omit [Crypto] in
/-- The request for the headers after the first block. -/
def afterGenesis (genesis : Uint256) : GetHeaders := ⟨[genesis], 0, false, fun _ => false⟩

/-- Pruning of the block at height 1, as the `pruneblockchain` call does it. -/
def pruneFirst : NodeEvent := .prune 1 fun _ => true

/-- A reply with a header that is not the one of its entry. -/
def ServesWrongHeader (opts : NodeOptions) (chainman : ChainstateManager) (request : GetHeaders) :
    Prop :=
  ∃ entries headers, chainman.servedEntries opts request = some entries ∧
    chainman.getHeadersReply opts request = some headers ∧
    headers.map (fun header => header.getHash) ≠ entries.map (fun pindex => pindex.phashBlock)

lemma servesWrongHeader_tallNode (hnull : (tallChain 1).phashBlock ≠ CPureBlockHeader.null.getHash)
    (hpruned : ((tallNode.run tallOptions [pruneFirst]).chainman.blockman.status
      (tallChain 1).phashBlock).haveData = false) :
    ServesWrongHeader tallOptions (tallNode.run tallOptions [pruneFirst]).chainman
      (afterGenesis (tallChain 0).phashBlock) := by
  have hreached := sound_run tallNode_sound [pruneFirst]
  have htip : (tallNode.run tallOptions [pruneFirst]).chainman.activeTip = some (tallChain 289) :=
    rfl
  have hindex : (tallNode.run tallOptions [pruneFirst]).chainman.blockman.blockIndex = tallIndex :=
    findFilesToPrune_blockIndex _ _ _ _
  generalize (tallNode.run tallOptions [pruneFirst]).chainman = chainman at *
  have hcontains : chainman.activeChainContains (tallChain 0) := by
    rw [ChainstateManager.activeChainContains, htip, Option.any_some]
    exact decide_eq_true (tallChain_getAncestor (Nat.zero_le 289))
  have hlookup :
      chainman.blockman.lookupBlockIndex (tallChain 0).phashBlock = some (tallChain 0) := by
    rw [lookupBlockIndex, hindex]
    exact find?_cons_of_pos (decide_eq_true rfl)
  have hnext : chainman.activeChainNext (tallChain 0) = some (tallChain 1) := by
    rw [ChainstateManager.activeChainNext, if_pos hcontains, htip, Option.bind_some]
    exact tallChain_getAncestor (by decide)
  have hfork : chainman.findForkInGlobalIndex [(tallChain 0).phashBlock] = some (tallChain 0) := by
    rw [ChainstateManager.findForkInGlobalIndex, hlookup]
    exact if_pos hcontains
  have hserved : chainman.servedEntries tallOptions (afterGenesis (tallChain 0).phashBlock) =
      some (chainman.servedFrom 0 1999 (tallChain 1)) := by
    simp [ChainstateManager.servedEntries, htip, afterGenesis, maxLocatorSz, tallOptions,
      hfork, hnext]
  have hfirst : tallChain 1 ∈ chainman.servedFrom 0 1999 (tallChain 1) := mem_cons_self
  refine ⟨_, _, hserved, by rw [ChainstateManager.getHeadersReply, hserved]; rfl, fun hsame => ?_⟩
  rw [map_map, map_inj_left] at hsame
  have hflagged : (tallChain 1).getBlockHeader.isAuxpow := by
    change decide ((0x00080104 : BitVec 32) &&& 0x100 ≠ 0) = true
    decide
  rcases (hreached.getBlockHeader_getHash_iff (tallChain_hashed 1)).1
    (hsame (tallChain 1) hfirst) hflagged with hdata | hhash
  · rw [hpruned] at hdata
    cases hdata
  · exact hnull hhash

omit [Crypto] in
/-- After the pruning of its file the header at height 1 is served as the null header. -/
theorem served_wrong_after_prune :
    @ChainstateManager.Sound Crypto.digits (@tallOptions Crypto.digits).params
        (@tallNode Crypto.digits).chainman ∧
      @ServesWrongHeader Crypto.digits (@tallOptions Crypto.digits)
        (@Node.run Crypto.digits (@tallOptions Crypto.digits) (@tallNode Crypto.digits)
          [pruneFirst]).chainman (afterGenesis (@tallChain Crypto.digits 0).phashBlock) :=
  ⟨@tallNode_sound .digits,
    @servesWrongHeader_tallNode .digits (by decide +kernel) (by decide +kernel)⟩

omit [Crypto] in
/-- While its data is there, the merged-mined header at height 1 is served as it is. -/
theorem served_hashes_iff_tallNode :
    (@tallChain Crypto.digits 1).getBlockHeader.isAuxpow = true ∧
      ∃ headers, @ChainstateManager.getHeadersReply Crypto.digits (@tallOptions Crypto.digits)
          (@run Crypto.digits (@tallOptions Crypto.digits) (@tallNode Crypto.digits) []).chainman
          ⟨[], (@tallChain Crypto.digits 1).phashBlock, false, fun _ => false⟩ = some headers ∧
        headers.map (fun header => @CPureBlockHeader.getHash Crypto.digits
          header.toCPureBlockHeader) = [(@tallChain Crypto.digits 1).phashBlock] := by
  let _ := Crypto.digits
  have hserved : (tallNode.run tallOptions []).chainman.servedEntries tallOptions
      ⟨[], (tallChain 1).phashBlock, false, fun _ => false⟩ = some [tallChain 1] := by
    decide +kernel
  have hdata : ((tallNode.run tallOptions []).chainman.blockman.status
      (tallChain 1).phashBlock).haveData = true := by
    decide +kernel
  refine ⟨by decide +kernel, _, by rw [ChainstateManager.getHeadersReply, hserved,
    Option.map_some], ?_⟩
  refine (served_hashes_iff tallNode_sound [] hserved
    (by rw [ChainstateManager.getHeadersReply, hserved, Option.map_some])).2 fun pindex hmem _ => ?_
  rw [mem_singleton.1 hmem]
  exact .inl hdata

/-- Whatever happens to a node, the data of an entry is read back as its own block, its bytes are
within the file, and no other entry has data at any of them. -/
theorem stored_run (hsound : node.chainman.Sound opts.params) (events : List NodeEvent) :
    let blockman := (node.run opts events).chainman.blockman
    ∀ hash, (blockman.status hash).haveData = true →
      ∃ block, blockman.readRawBlock (blockman.dataPos hash) = some block ∧ block.getHash = hash ∧
        BlockRecord.Within blockman.blockfileInfo (blockman.dataPos hash, block) ∧
        ∀ other ≠ hash, (blockman.status other).haveData = true →
          ∀ block', blockman.readRawBlock (blockman.dataPos other) = some block' →
            BlockRecord.overlaps (blockman.dataPos hash, block)
              (blockman.dataPos other, block') = false := by
  intro blockman hash hdata
  have hstored : blockman.Stored := (sound_run hsound events).stored
  obtain ⟨block, hmem, hhash⟩ := hstored.recorded hash hdata
  refine ⟨block, readRawBlock_of_mem hstored.apart hmem (hstored.within _ hmem), hhash,
    hstored.within _ hmem, fun other hne hother block' hread => ?_⟩
  obtain ⟨found, hfound, hsame⟩ := hstored.recorded other hother
  rw [readRawBlock_of_mem hstored.apart hfound (hstored.within _ hfound)] at hread
  cases hread
  refine hstored.apart.forall hmem hfound fun heq => hne ?_
  rw [← hhash, ← hsame, (Prod.mk.inj heq).2]

omit [Crypto] in
theorem stored_run_tallNode :
    let blockman := (@run Crypto.digits (@tallOptions Crypto.digits) (@tallNode Crypto.digits)
      [pruneFirst]).chainman.blockman
    ∃ block, blockman.readRawBlock (blockman.dataPos (@tallChain Crypto.digits 2).phashBlock) =
        some block ∧
      BlockRecord.Within blockman.blockfileInfo
        (blockman.dataPos (@tallChain Crypto.digits 2).phashBlock, block) := by
  obtain ⟨block, hread, -, hwithin, -⟩ := @stored_run .digits (@tallOptions .digits) _
    (@tallNode_sound .digits) [pruneFirst] (@tallChain .digits 2).phashBlock (by decide +kernel)
  exact ⟨block, hread, hwithin⟩

end Node

end Tidecoin
