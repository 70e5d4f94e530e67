import Tidecoin.Validation.Block

/-!
The block index and the block files of `node/blockstorage.cpp`. The fields of an index entry that
change during its life are kept beside the index, by block hash. A record of a block file is
modelled by the block that was written there; it takes the bytes of its header and of the block, and
it is lost when another record is written over one of them. Undo files, the index database and the
second set of block files of a snapshot chainstate are not part of the model.
-/

namespace Tidecoin

open Lib

/-- `STORAGE_HEADER_BYTES`: the network magic and the size before a record. -/
def storageHeaderBytes : Nat := 8

def minBlocksToKeep : Int := 288

/-- A position in the block files. -/
structure FlatFilePos where
  nFile : Int
  nPos : Nat
deriving DecidableEq, Repr

/-- The position the default constructor makes. -/
def FlatFilePos.null : FlatFilePos := ⟨-1, 0⟩

/-- The fields of a `CBlockIndex` that change: two of its status bits, the number of its
transactions and the position of its data. -/
structure EntryStatus where
  haveData : Bool
  failedValid : Bool
  nTx : Nat
  nFile : Int
  nDataPos : Nat
deriving DecidableEq, Repr

/-- The status of a new entry. -/
def EntryStatus.initial : EntryStatus := ⟨false, false, 0, 0, 0⟩

/-- `CBlockFileInfo`, without the times. -/
structure CBlockFileInfo where
  nBlocks : Nat
  nSize : Nat
  nHeightFirst : Int
  nHeightLast : Int
deriving DecidableEq, Repr

namespace CBlockFileInfo

def empty : CBlockFileInfo := ⟨0, 0, 0, 0⟩

/-- `AddBlock`, with the growth of the file that follows it. -/
def addBlock (info : CBlockFileInfo) (nHeight : Int) (nAddSize : Nat) : CBlockFileInfo where
  nBlocks := info.nBlocks + 1
  nSize := info.nSize + nAddSize
  nHeightFirst :=
    if info.nBlocks = 0 ∨ info.nHeightFirst > nHeight then nHeight else info.nHeightFirst
  nHeightLast := max info.nHeightLast nHeight

end CBlockFileInfo

/-- A record of the block files: the position of the block, which is behind the header of the
record, and the block. -/
abbrev BlockRecord := FlatFilePos × CBlock

namespace BlockRecord

/-- The bytes of the block. -/
def size (record : BlockRecord) : Nat := ((record.2.serialize true).getD []).length

/-- The first byte of the record. -/
def start (record : BlockRecord) : Nat := record.1.nPos - storageHeaderBytes

/-- The first byte behind the record. -/
def stop (record : BlockRecord) : Nat := record.1.nPos + record.size

/-- The records have a byte in common. -/
def overlaps (record other : BlockRecord) : Bool :=
  record.1.nFile = other.1.nFile && record.start < other.stop && other.start < record.stop

/-- The block at a position, in records of which the newest is first: one that a newer record was
written over cannot be read. -/
def read (pos : FlatFilePos) : List BlockRecord → Option CBlock
  | [] => none
  | record :: older =>
    if record.1 = pos then some record.2
    else (read pos older).filter fun block => !record.overlaps (pos, block)

end BlockRecord

/-- `BlockManager`: the index, the status of its entries, the known block files, of which the last
one is written to, and what is in these files, the newest record first. -/
structure BlockManager where
  blockIndex : List CBlockIndex
  status : Uint256 → EntryStatus
  blockfileInfo : List CBlockFileInfo
  records : List BlockRecord
  fastPrune : Bool

namespace BlockManager

def lookupBlockIndex (blockman : BlockManager) (hash : Uint256) : Option CBlockIndex :=
  blockman.blockIndex.find? fun pindex => pindex.phashBlock = hash

lemma lookupBlockIndex_eq_some {blockman : BlockManager} {hash : Uint256} {pindex : CBlockIndex}
    (hlookup : blockman.lookupBlockIndex hash = some pindex) :
    pindex ∈ blockman.blockIndex ∧ pindex.phashBlock = hash := by
  refine ⟨List.mem_of_find?_eq_some hlookup, ?_⟩
  have hfound := List.find?_some hlookup
  exact of_decide_eq_true hfound

section

variable (blockman : BlockManager)

/-- `BLOCK_FAILED_VALID` is set. -/
def isFailed (pindex : CBlockIndex) : Bool := (blockman.status pindex.phashBlock).failedValid

def getBlockPos (pindex : CBlockIndex) : FlatFilePos :=
  let status := blockman.status pindex.phashBlock
  if status.haveData then ⟨status.nFile, status.nDataPos⟩ else FlatFilePos.null

/-- `ReadRawBlock` and the decoding of what was read. -/
def readRawBlock (pos : FlatFilePos) : Option CBlock :=
  if pos.nPos < storageHeaderBytes then none
  else BlockRecord.read pos blockman.records

def maxBlockfileNum : Nat := blockman.blockfileInfo.length - 1

/-- The largest size of a block file: `MAX_BLOCKFILE_SIZE`, or 64 KiB with room for one block. -/
def maxBlockfileSize (nAddSize : Nat) : Nat :=
  if blockman.fastPrune then max 0x10000 (nAddSize + 1) else 0x8000000

/-- `FindNextBlockPos`: the end of the last file, or the start of a new one, with the updated
files. -/
def findNextBlockPos (nAddSize : Nat) (nHeight : Int) : FlatFilePos × List CBlockFileInfo :=
  let last := blockman.blockfileInfo.getLastD CBlockFileInfo.empty
  if last.nSize + nAddSize ≥ blockman.maxBlockfileSize nAddSize then
    (⟨blockman.maxBlockfileNum + 1, 0⟩,
      blockman.blockfileInfo ++ [CBlockFileInfo.empty.addBlock nHeight nAddSize])
  else
    (⟨blockman.maxBlockfileNum, last.nSize⟩,
      blockman.blockfileInfo.dropLast ++ [last.addBlock nHeight nAddSize])

/-- `WriteBlock`: the position of the new record; none if the block cannot be encoded. -/
def writeBlock (block : CBlock) (nHeight : Int) : Option (FlatFilePos × BlockManager) :=
  match block.serialize true with
  | none => none
  | some bytes =>
    let (pos, blockfileInfo) :=
      blockman.findNextBlockPos (bytes.length + storageHeaderBytes) nHeight
    let dataPos := { pos with nPos := pos.nPos + storageHeaderBytes }
    some (dataPos, { blockman with
      blockfileInfo := blockfileInfo
      records := (dataPos, block) :: blockman.records })

/-- The change of one entry's status. -/
def updateStatus (hash : Uint256) (change : EntryStatus → EntryStatus) : BlockManager :=
  { blockman with
    status := fun other => if other = hash then change (blockman.status other)
      else blockman.status other }

/-- The entries with these hashes, and no others, are marked as failed. -/
def markFailed (failed : Uint256 → Bool) : BlockManager :=
  { blockman with
    status := fun hash => { blockman.status hash with failedValid := failed hash } }

end

variable (blockman : BlockManager)

@[simp] lemma markFailed_blockIndex (failed : Uint256 → Bool) :
    (blockman.markFailed failed).blockIndex = blockman.blockIndex := rfl

/-- A new entry in the index. -/
def insertEntry (blockman : BlockManager) (pindexNew : CBlockIndex) : BlockManager :=
  { blockman.updateStatus pindexNew.phashBlock fun _ => EntryStatus.initial with
    blockIndex := pindexNew :: blockman.blockIndex }

@[simp] lemma insertEntry_blockIndex (pindexNew : CBlockIndex) :
    (blockman.insertEntry pindexNew).blockIndex = pindexNew :: blockman.blockIndex := rfl

/-- `ReceivedBlockTransactions`, as far as the entry itself is concerned. -/
def receivedBlockTransactions (blockman : BlockManager) (block : CBlock) (pindex : CBlockIndex)
    (pos : FlatFilePos) : BlockManager :=
  blockman.updateStatus pindex.phashBlock fun status =>
    { status with
      haveData := true
      nTx := block.vtx.length
      nFile := pos.nFile
      nDataPos := pos.nPos }

/-- `PruneOneBlockFile` and the removal of the file by `UnlinkPrunedFiles`. -/
def pruneOneBlockFile (blockman : BlockManager) (fileNumber : Nat) : BlockManager :=
  { blockman with
    status := fun hash =>
      let status := blockman.status hash
      if status.nFile = fileNumber then
        { status with haveData := false, nFile := 0, nDataPos := 0 }
      else status
    blockfileInfo := blockman.blockfileInfo.set fileNumber CBlockFileInfo.empty
    records := blockman.records.filter fun record => record.1.nFile ≠ fileNumber }

/-- The last height `GetPruneRange` lets a file hold that is to be pruned. -/
def pruneEnd (chainHeight lastPrune : Int) : Int :=
  if chainHeight ≤ 0 then 0 else min lastPrune (max 0 (chainHeight - minBlocksToKeep))

/-- The file holds blocks, and only blocks that may be pruned. -/
def mayPrune (info : CBlockFileInfo) (chainHeight lastPrune : Int) : Bool :=
  info.nSize ≠ 0 && info.nHeightLast ≤ pruneEnd chainHeight lastPrune && info.nHeightFirst ≥ 0

/-- The loop of `FindFilesToPrune` and `FindFilesToPruneManual` over all files but the last one.
`selected` are the files the loop comes to before the disk usage is below its target; the manual
loop comes to all of them. -/
def findFilesToPrune (blockman : BlockManager) (chainHeight lastPrune : Int)
    (selected : Nat → Bool) : BlockManager :=
  (List.range blockman.maxBlockfileNum).foldl (fun blockman fileNumber =>
    if selected fileNumber && mayPrune (blockman.blockfileInfo.getD fileNumber .empty) chainHeight
        lastPrune then blockman.pruneOneBlockFile fileNumber
    else blockman) blockman

@[simp] lemma findFilesToPrune_blockIndex (chainHeight lastPrune : Int) (selected : Nat → Bool) :
    (blockman.findFilesToPrune chainHeight lastPrune selected).blockIndex =
      blockman.blockIndex := by
  rw [findFilesToPrune]
  generalize List.range blockman.maxBlockfileNum = files
  induction files generalizing blockman with
  | nil => rfl
  | cons fileNumber files ih =>
    rw [List.foldl_cons, ih]
    split <;> rfl

variable [Crypto]

/-- `ReadBlockHeaderFromDisk`: the header object, and whether the read succeeded. -/
def readBlockHeaderFromDisk (blockman : BlockManager) (pindex : CBlockIndex) :
    CBlockHeader × Bool :=
  match blockman.readRawBlock (blockman.getBlockPos pindex) with
  | none => (⟨CPureBlockHeader.null, none⟩, false)
  | some block => (block.toCBlockHeader, block.getHash = pindex.phashBlock)

/-- `CBlockIndex::GetBlockHeader(chainman)`: the header of a merged-mined block is read from disk.
The result of the read is not looked at. -/
def getBlockHeader (blockman : BlockManager) (pindex : CBlockIndex) : CBlockHeader :=
  if pindex.getBlockHeader.isAuxpow then (blockman.readBlockHeaderFromDisk pindex).1
  else pindex.getBlockHeader

/-- The entry `AddToBlockIndex` makes for a header. -/
def newEntry (blockman : BlockManager) (block : CBlockHeader) : CBlockIndex :=
  match blockman.lookupBlockIndex block.hashPrevBlock with
  | some pindexPrev => pindexPrev.extend block
  | none =>
    { phashBlock := block.getHash
      nHeight := 0
      nChainWork := getBlockProof block.nBits
      nVersion := block.nVersion
      hashMerkleRoot := block.hashMerkleRoot
      nTime := block.nTime
      nBits := block.nBits
      nNonce := block.nNonce
      ancestors := [] }

lemma newEntry_of_lookup {blockman : BlockManager} {block : CBlockHeader} {pindexPrev : CBlockIndex}
    (hprev : blockman.lookupBlockIndex block.hashPrevBlock = some pindexPrev) :
    (blockman.newEntry block).nHeight = pindexPrev.nHeight + 1 ∧
      (blockman.newEntry block).getBlockHeader.toCPureBlockHeader = block.toCPureBlockHeader := by
  have hhash := (lookupBlockIndex_eq_some hprev).2
  rw [newEntry, hprev]
  exact ⟨rfl, CBlockIndex.extend_getBlockHeader hhash.symm⟩

lemma newEntry_phashBlock (block : CBlockHeader) :
    (blockman.newEntry block).phashBlock = block.getHash := by
  rw [newEntry]
  split <;> rfl

end BlockManager

end Tidecoin
