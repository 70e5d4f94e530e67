import Tidecoin.Validation.Accept

/-!
What the block index and the block files keep in common while headers are accepted, blocks are
stored and files are pruned: an entry has the hash of the header it stands for, and an entry that
has data has a record at its position. The records lie inside their files and have no byte in
common, since a file is only written at its end.
-/

namespace Tidecoin

open Lib List CBlockFileInfo

namespace BlockRecord

/-- The bytes of the record are among those written to an existing file. -/
def Within (files : List CBlockFileInfo) (record : BlockRecord) : Prop :=
  ∃ (file : Nat) (info : CBlockFileInfo), record.1.nFile = file ∧ files[file]? = some info ∧
    storageHeaderBytes ≤ record.1.nPos ∧ record.stop ≤ info.nSize

/-- The records have no byte in common. -/
def Apart (record other : BlockRecord) : Prop := record.overlaps other = false

variable {files : List CBlockFileInfo} {record other : BlockRecord}

lemma apart_iff : record.Apart other ↔
    record.1.nFile = other.1.nFile → other.stop ≤ record.start ∨ record.stop ≤ other.start := by
  rw [Apart, overlaps, Bool.and_eq_false_iff, Bool.and_eq_false_iff, or_assoc]
  simp only [decide_eq_false_iff_not, not_lt, ← imp_iff_not_or]

instance : Std.Symm Apart where
  symm record other hapart := by
    rw [apart_iff] at hapart ⊢
    exact fun hfile => (hapart hfile.symm).symm

lemma Within.nFile_lt (hwithin : record.Within files) : record.1.nFile < files.length := by
  obtain ⟨file, info, hfile, hget, -⟩ := hwithin
  rw [hfile]
  exact_mod_cast (List.getElem?_eq_some_iff.1 hget).1

lemma within_concat_iff {last : CBlockFileInfo} : record.Within (files ++ [last]) ↔
    record.Within files ∨ record.1.nFile = files.length ∧ storageHeaderBytes ≤ record.1.nPos ∧
      record.stop ≤ last.nSize := by
  constructor
  · rintro ⟨file, info, hfile, hget, hpos⟩
    rcases Nat.lt_trichotomy file files.length with hlt | heq | hgt
    · rw [getElem?_append_left hlt] at hget
      exact .inl ⟨file, info, hfile, hget, hpos⟩
    · rw [heq, getElem?_concat_length] at hget
      cases hget
      exact .inr ⟨by omega, hpos⟩
    · rw [getElem?_eq_none (by simpa using hgt)] at hget
      cases hget
  · rintro (⟨file, info, hfile, hget, hpos⟩ | ⟨hfile, hpos⟩)
    · have hlt := (List.getElem?_eq_some_iff.1 hget).1
      exact ⟨file, info, hfile, by rw [getElem?_append_left hlt, hget], hpos⟩
    · exact ⟨files.length, last, hfile, getElem?_concat_length, hpos⟩

/-- What is not written over is read back. -/
lemma read_of_mem {records : List BlockRecord} (hapart : records.Pairwise Apart)
    (hpos : storageHeaderBytes ≤ record.1.nPos) (hmem : record ∈ records) :
    read record.1 records = some record.2 := by
  induction records with
  | nil => cases hmem
  | cons newest older ih =>
    obtain ⟨hnewest, hapart⟩ := pairwise_cons.1 hapart
    rw [read]
    rcases mem_cons.1 hmem with rfl | hmem
    · rw [if_pos rfl]
    · have hfree : newest.overlaps record = false := hnewest record hmem
      rw [if_neg, ih hapart hmem]
      · simp [hfree]
      · intro hsame
        have hdisjoint := apart_iff.1 hfree (by rw [hsame])
        rw [start, start, stop, stop, hsame] at hdisjoint
        simp only [storageHeaderBytes] at hpos hdisjoint
        omega

end BlockRecord

namespace BlockManager

variable {files : List CBlockFileInfo} {pos : FlatFilePos} {blockman : BlockManager}

/-- The place a new record gets is behind everything that was written, and within its file from then
on. -/
theorem findNextBlockPos_spec (hfiles : blockman.blockfileInfo ≠ []) {nHeight : Int}
    {block : CBlock} {record : BlockRecord}
    (hrecord : record = ({ pos with nPos := pos.nPos + storageHeaderBytes }, block))
    (hnext : blockman.findNextBlockPos (record.size + storageHeaderBytes) nHeight = (pos, files)) :
    files ≠ [] ∧ record.Within files ∧
      ∀ other : BlockRecord, other.Within blockman.blockfileInfo →
        record.Apart other ∧ other.Within files := by
  obtain ⟨init, last, hinfo⟩ := (eq_nil_or_concat blockman.blockfileInfo).resolve_left hfiles
  rw [concat_eq_append] at hinfo
  have hnum : blockman.maxBlockfileNum = init.length := by
    rw [maxBlockfileNum, hinfo, length_append, length_singleton, Nat.add_sub_cancel]
  have hlast : blockman.blockfileInfo.getLastD .empty = last := by
    rw [hinfo, getLastD_concat]
  rw [findNextBlockPos, hlast, hnum, hinfo, dropLast_concat] at hnext
  rw [hinfo]
  have hstart : record.start = pos.nPos := by
    rw [BlockRecord.start, hrecord, Nat.add_sub_cancel]
  have hstop : record.stop = pos.nPos + (record.size + storageHeaderBytes) := by
    rw [BlockRecord.stop, hrecord]
    dsimp only
    omega
  have hpos : storageHeaderBytes ≤ record.1.nPos := by
    rw [hrecord]
    exact Nat.le_add_left ..
  have hfile : record.1.nFile = pos.nFile := by rw [hrecord]
  split at hnext
  · -- the record starts a new file, whose number no other record has
    obtain ⟨rfl, rfl⟩ := Prod.mk.inj hnext
    refine ⟨by simp, BlockRecord.within_concat_iff.2 (.inr ⟨?_, hpos, ?_⟩),
      fun other hother => ⟨BlockRecord.apart_iff.2 fun hsame => ?_, ?_⟩⟩
    · rw [hfile, length_append, length_singleton]
      rfl
    · rw [hstop]
      rfl
    · have hlt := hother.nFile_lt
      rw [← hsame, hfile, length_append, length_singleton] at hlt
      exact absurd hlt (lt_irrefl _)
    · exact BlockRecord.within_concat_iff.2 (.inl hother)
  · -- the record is appended to the last file
    obtain ⟨rfl, rfl⟩ := Prod.mk.inj hnext
    refine ⟨by simp, BlockRecord.within_concat_iff.2 (.inr ⟨hfile, hpos, ?_⟩),
      fun other hother => ?_⟩
    · rw [hstop]
      rfl
    · rcases BlockRecord.within_concat_iff.1 hother with hinit | ⟨hother, hbehind, hend⟩
      · refine ⟨BlockRecord.apart_iff.2 fun hsame => ?_,
          BlockRecord.within_concat_iff.2 (.inl hinit)⟩
        have hlt := hinit.nFile_lt
        rw [← hsame, hfile] at hlt
        exact absurd hlt (lt_irrefl _)
      · refine ⟨BlockRecord.apart_iff.2 fun _ => .inl (hend.trans hstart.ge),
          BlockRecord.within_concat_iff.2 (.inr ⟨hother, hbehind, hend.trans ?_⟩)⟩
        exact Nat.le_add_right ..

lemma readRawBlock_of_mem (hapart : blockman.records.Pairwise BlockRecord.Apart)
    {record : BlockRecord} (hmem : record ∈ blockman.records)
    (hwithin : record.Within blockman.blockfileInfo) :
    blockman.readRawBlock record.1 = some record.2 := by
  obtain ⟨_, _, -, -, hpos, -⟩ := hwithin
  rw [readRawBlock, if_neg hpos.not_gt]
  exact BlockRecord.read_of_mem hapart hpos hmem

/-- The position of an entry's data. -/
def dataPos (blockman : BlockManager) (hash : Uint256) : FlatFilePos :=
  ⟨(blockman.status hash).nFile, (blockman.status hash).nDataPos⟩

variable [Crypto]

/-- The records lie within their files and apart from each other, and entries with data have a
record of a block with their hash. -/
structure Stored (blockman : BlockManager) : Prop where
  files : blockman.blockfileInfo ≠ []
  within : ∀ record ∈ blockman.records, record.Within blockman.blockfileInfo
  apart : blockman.records.Pairwise BlockRecord.Apart
  recorded : ∀ hash, (blockman.status hash).haveData = true →
    ∃ block, (blockman.dataPos hash, block) ∈ blockman.records ∧ block.getHash = hash

variable (hstored : blockman.Stored)
include hstored

lemma Stored.readable (hash : Uint256) (hdata : (blockman.status hash).haveData = true) :
    ∃ block, blockman.readRawBlock (blockman.dataPos hash) = some block ∧
      block.getHash = hash := by
  obtain ⟨block, hmem, hhash⟩ := hstored.recorded hash hdata
  exact ⟨block, readRawBlock_of_mem hstored.apart hmem (hstored.within _ hmem), hhash⟩

lemma Stored.of_status {blockman' : BlockManager}
    (hfiles : blockman'.blockfileInfo = blockman.blockfileInfo)
    (hrecords : blockman'.records = blockman.records)
    (hstatus : ∀ hash, (blockman'.status hash).haveData → (blockman.status hash).haveData ∧
      blockman'.dataPos hash = blockman.dataPos hash) : blockman'.Stored := by
  refine ⟨?_, ?_, ?_, fun hash hdata => ?_⟩
  · rw [hfiles]
    exact hstored.files
  · rw [hfiles, hrecords]
    exact hstored.within
  · rw [hrecords]
    exact hstored.apart
  · obtain ⟨hbefore, hpos⟩ := hstatus hash hdata
    rw [hpos, hrecords]
    exact hstored.recorded hash hbefore

lemma Stored.insertEntry (pindexNew : CBlockIndex) : (blockman.insertEntry pindexNew).Stored := by
  refine hstored.of_status rfl rfl fun hash hdata => ?_
  simp only [BlockManager.insertEntry, updateStatus, dataPos] at hdata ⊢
  split at hdata
  · cases hdata
  · next hother => rw [if_neg hother]; exact ⟨hdata, rfl⟩

lemma Stored.markFailed (failed : Uint256 → Bool) : (blockman.markFailed failed).Stored :=
  hstored.of_status rfl rfl fun _ hdata => ⟨hdata, rfl⟩

lemma Stored.writeBlock {blockman' : BlockManager} {block : CBlock}
    {nHeight : Int} (hwrite : blockman.writeBlock block nHeight = some (pos, blockman'))
    {pindex : CBlockIndex} (hhash : pindex.phashBlock = block.getHash) :
    (blockman'.receivedBlockTransactions block pindex pos).Stored := by
  rw [BlockManager.writeBlock] at hwrite
  cases hbytes : block.serialize true with
  | none =>
    rw [hbytes] at hwrite
    cases hwrite
  | some bytes =>
    rw [hbytes] at hwrite
    cases hnext : blockman.findNextBlockPos (bytes.length + storageHeaderBytes) nHeight with
    | mk start files =>
      simp only [hnext] at hwrite
      cases hwrite
      have hsize : (BlockRecord.size (({ start with nPos := start.nPos + storageHeaderBytes } :
          FlatFilePos), block)) = bytes.length := by
        rw [BlockRecord.size, hbytes, Option.getD_some]
      rw [← hsize] at hnext
      obtain ⟨hfiles, hnew, hold⟩ := findNextBlockPos_spec hstored.files rfl hnext
      refine ⟨hfiles, ?_, ?_, fun hash hdata => ?_⟩
      · intro record hmem
        rcases mem_cons.1 hmem with rfl | hmem
        · exact hnew
        · exact (hold record (hstored.within record hmem)).2
      · exact pairwise_cons.2
          ⟨fun record hmem => (hold record (hstored.within record hmem)).1, hstored.apart⟩
      · simp only [receivedBlockTransactions, updateStatus, dataPos] at hdata ⊢
        by_cases hentry : hash = pindex.phashBlock
        · simp only [if_pos hentry]
          exact ⟨block, mem_cons_self, hhash.symm.trans hentry.symm⟩
        · simp only [if_neg hentry] at hdata ⊢
          obtain ⟨stored, hmem, hsame⟩ := hstored.recorded hash hdata
          exact ⟨stored, mem_cons_of_mem _ hmem, hsame⟩

lemma Stored.pruneOneBlockFile (fileNumber : Nat) :
    (blockman.pruneOneBlockFile fileNumber).Stored := by
  have hkept : ∀ hash, ((blockman.pruneOneBlockFile fileNumber).status hash).haveData →
      (blockman.status hash).haveData ∧ (blockman.status hash).nFile ≠ fileNumber ∧
        (blockman.pruneOneBlockFile fileNumber).dataPos hash = blockman.dataPos hash := by
    intro hash hdata
    simp only [BlockManager.pruneOneBlockFile, dataPos] at hdata ⊢
    split at hdata
    · cases hdata
    · next hother => exact ⟨hdata, hother, by rw [if_neg hother]⟩
  refine ⟨?_, ?_, hstored.apart.filter _, fun hash hdata => ?_⟩
  · simpa [BlockManager.pruneOneBlockFile] using hstored.files
  · intro record hmem
    obtain ⟨hmem, hother⟩ := mem_filter.1 hmem
    obtain ⟨file, info, hfile, hget, hle⟩ := hstored.within record hmem
    refine ⟨file, info, hfile, ?_, hle⟩
    have hne : fileNumber ≠ file := by
      rintro rfl
      exact of_decide_eq_true hother hfile
    rw [BlockManager.pruneOneBlockFile, getElem?_set_ne hne, hget]
  · obtain ⟨hbefore, hother, hpos⟩ := hkept hash hdata
    obtain ⟨block, hmem, hsame⟩ := hstored.recorded hash hbefore
    rw [hpos]
    exact ⟨block, mem_filter.2 ⟨hmem, decide_eq_true hother⟩, hsame⟩

lemma Stored.findFilesToPrune (chainHeight lastPrune : Int) (selected : Nat → Bool) :
    (blockman.findFilesToPrune chainHeight lastPrune selected).Stored := by
  rw [BlockManager.findFilesToPrune]
  generalize range blockman.maxBlockfileNum = files
  induction files generalizing blockman with
  | nil => exact hstored
  | cons fileNumber files ih =>
    rw [foldl_cons]
    apply ih
    split
    · exact hstored.pruneOneBlockFile fileNumber
    · exact hstored

end BlockManager

section

variable [Crypto]

/-- Every entry of the chain has the hash of the header it stands for. -/
def HashedChain : List IndexEntry → Prop
  | [] => True
  | entry :: ancestors =>
    (CBlockIndex.mk entry ancestors).getBlockHeader.getHash = entry.phashBlock ∧
      HashedChain ancestors

lemma HashedChain.drop {chain : List IndexEntry} (hchain : HashedChain chain) (count : Nat) :
    HashedChain (chain.drop count) := by
  induction count generalizing chain with
  | zero => exact hchain
  | succ count ih =>
    cases chain with
    | nil => trivial
    | cons entry ancestors => exact ih hchain.2

lemma HashedChain.getAncestor {pindex ancestor : CBlockIndex} (hchain : HashedChain pindex.chain)
    {height : Int} (hancestor : pindex.getAncestor height = some ancestor) :
    HashedChain ancestor.chain := by
  rw [CBlockIndex.getAncestor] at hancestor
  split at hancestor
  · cases hancestor
  · split at hancestor
    · cases hancestor
    · next hdrop =>
        cases hancestor
        have hlater := hchain.drop (pindex.nHeight - height).toNat
        rwa [hdrop] at hlater

lemma HashedChain.newEntry {blockman : BlockManager}
    (hashed : ∀ pindex ∈ blockman.blockIndex, HashedChain pindex.chain) {block : CBlockHeader}
    {pindexPrev : CBlockIndex}
    (hprev : blockman.lookupBlockIndex block.hashPrevBlock = some pindexPrev) :
    HashedChain (blockman.newEntry block).chain := by
  have hmem := (BlockManager.lookupBlockIndex_eq_some hprev).1
  constructor
  · rw [(BlockManager.newEntry_of_lookup hprev).2, BlockManager.newEntry_phashBlock]
  · rw [BlockManager.newEntry, hprev]
    exact hashed pindexPrev hmem

end

namespace ChainstateManager

variable [Crypto]

/-- The index contains the genesis block, its entries have the hashes of their headers, and the
block files hold what the index says. -/
structure Sound (params : Params) (chainman : ChainstateManager) : Prop where
  genesis : chainman.blockman.lookupBlockIndex params.hashGenesisBlock ≠ none
  hashed : ∀ pindex ∈ chainman.blockman.blockIndex, HashedChain pindex.chain
  tip : ∀ tip ∈ chainman.activeTip, HashedChain tip.chain
  stored : chainman.blockman.Stored

variable {params : Params} {chainman : ChainstateManager}

lemma Sound.acceptHeader (hsound : chainman.Sound params) {block : CBlockHeader}
    {proofCheckedHeight : Option Int} {accepted : AcceptedHeader}
    (haccepted : HeaderAccepted params chainman block proofCheckedHeight accepted) :
    accepted.chainman.Sound params := by
  cases haccepted with
  | known hsame hlookup => rwa [hsame]
  | added hunknown hentry hblockman htip hchecked =>
    rcases hchecked with hgenesis | ⟨pindexPrev, hprev, -⟩
    · rw [hgenesis] at hunknown
      exact absurd hunknown hsound.genesis
    · refine ⟨?_, ?_, ?_, ?_⟩
      · rw [hblockman, BlockManager.lookupBlockIndex, BlockManager.insertEntry_blockIndex,
          find?_cons]
        split
        · exact Option.some_ne_none _
        · exact hsound.genesis
      · intro pindex hpindex
        rw [hblockman, BlockManager.insertEntry_blockIndex] at hpindex
        rcases mem_cons.1 hpindex with rfl | hold
        · rw [hentry]
          exact .newEntry hsound.hashed hprev
        · exact hsound.hashed pindex hold
      · rw [htip]
        exact hsound.tip
      · rw [hblockman]
        exact hsound.stored.insertEntry _

lemma Sound.processNewBlockHeadersImpl {minPowChecked : Bool} {now : Int}
    {headers : List CBlockHeader}
    {startHeight : Option Int} {pindexLast : Option CBlockIndex} (hsound : chainman.Sound params) :
    (ChainstateManager.processNewBlockHeadersImpl params minPowChecked now chainman headers
      startHeight pindexLast).1.Sound params := by
  induction headers generalizing chainman startHeight pindexLast with
  | nil => exact hsound
  | cons header headers ih =>
    rw [ChainstateManager.processNewBlockHeadersImpl]
    split
    case h_1 => exact hsound
    case h_2 accepted haccept => exact ih (hsound.acceptHeader (acceptBlockHeader_eq_ok haccept))

lemma HeaderAccepted.phashBlock {block : CBlockHeader} {proofCheckedHeight : Option Int}
    {accepted : AcceptedHeader}
    (haccepted : HeaderAccepted params chainman block proofCheckedHeight accepted) :
    accepted.pindex.phashBlock = block.getHash := by
  cases haccepted with
  | known _ hlookup => exact (BlockManager.lookupBlockIndex_eq_some hlookup).2
  | added _ hentry => rw [hentry, BlockManager.newEntry_phashBlock]

variable (hsound : chainman.Sound params)
include hsound

lemma Sound.of_blockman {chainman' : ChainstateManager}
    (hindex : chainman'.blockman.blockIndex = chainman.blockman.blockIndex)
    (htip : chainman'.activeTip = chainman.activeTip) (hstored : chainman'.blockman.Stored) :
    chainman'.Sound params := by
  refine ⟨?_, ?_, ?_, hstored⟩
  · rw [BlockManager.lookupBlockIndex, hindex]
    exact hsound.genesis
  · rw [hindex]
    exact hsound.hashed
  · rw [htip]
    exact hsound.tip

lemma Sound.invalidBlockFound (pindex : CBlockIndex) (invalid : BlockInvalid) :
    (chainman.invalidBlockFound pindex invalid).Sound params := by
  obtain ⟨htip, failed, hmarks⟩ := chainman.invalidBlockFound_spec pindex invalid
  refine hsound.of_blockman ?_ htip ?_
  · rw [hmarks, BlockManager.markFailed_blockIndex]
  · rw [hmarks]
    exact hsound.stored.markFailed failed

lemma Sound.storeBlock {block : CBlock} {pindex : CBlockIndex}
    (hhash : pindex.phashBlock = block.getHash) :
    (chainman.storeBlock block pindex).Sound params := by
  cases hwrite : chainman.blockman.writeBlock block pindex.nHeight with
  | none =>
    rw [ChainstateManager.storeBlock, hwrite]
    exact hsound
  | some written =>
    refine hsound.of_blockman (storeBlock_blockIndex chainman block pindex) ?_ ?_
    · rw [ChainstateManager.storeBlock, hwrite]
    · rw [ChainstateManager.storeBlock, hwrite]
      exact hsound.stored.writeBlock hwrite hhash

lemma Sound.processNewBlock {minimumChainWork : ArithUint256} {block : CBlock}
    {forceProcessing minPowChecked : Bool} {now : Int} :
    (chainman.processNewBlock params minimumChainWork block forceProcessing minPowChecked
      now).1.Sound params := by
  refine processNewBlock_cases (P := Sound params) params hsound fun accepted haccepted => ?_
  have haccepts := hsound.acceptHeader haccepted
  exact ⟨haccepts, haccepts.invalidBlockFound accepted.pindex,
    haccepts.storeBlock haccepted.phashBlock⟩

end ChainstateManager

end Tidecoin
