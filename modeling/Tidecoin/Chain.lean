import Tidecoin.Primitives

/-!
Block index entries of `chain.h`. An entry is modelled together with the chain of entries its
`pprev` pointer leads to, nearest first; the file positions and status bits, which change during
the life of an entry, are kept with the storage model. `GetAncestor` is the walk along `pprev`;
the skip pointers that shorten it are not part of this module.
-/

namespace Tidecoin

/-- `MAX_FUTURE_BLOCK_TIME`, in seconds. -/
def maxFutureBlockTime : Int := 2 * 60 * 60

/-- The fields of a `CBlockIndex` that never change once the entry is in the index. -/
structure IndexEntry where
  phashBlock : Uint256
  nHeight : Int
  nChainWork : ArithUint256
  nVersion : BitVec 32
  hashMerkleRoot : Uint256
  nTime : UInt32
  nBits : UInt32
  nNonce : UInt32
deriving DecidableEq, Repr

def IndexEntry.getBlockTime (entry : IndexEntry) : Int := entry.nTime.toNat

/-- An entry with its ancestors, nearest first. -/
structure CBlockIndex extends IndexEntry where
  ancestors : List IndexEntry
deriving DecidableEq, Repr

/-- The middle element of the sorted times, the upper one of an even number. -/
def medianTime (times : List Int) : Int := (times.insertionSort (· ≤ ·)).getD (times.length / 2) 0

lemma medianTime_perm {times times' : List Int} (hperm : times.Perm times') :
    medianTime times = medianTime times' := by
  have hsorted : times.insertionSort (· ≤ ·) = times'.insertionSort (· ≤ ·) :=
    (((times.perm_insertionSort _).trans hperm).trans (times'.perm_insertionSort
      _).symm).eq_of_pairwise'
      (times.pairwise_insertionSort _) (times'.pairwise_insertionSort _)
  rw [medianTime, medianTime, hsorted, hperm.length_eq]

@[simp] lemma medianTime_reverse (times : List Int) : medianTime times.reverse = medianTime times :=
  medianTime_perm times.reverse_perm

/-- `nMedianTimeSpan`, and `MTP_SPAN` of the header sync. -/
def medianTimeSpan : Nat := 11

namespace CBlockIndex

variable (pindex : CBlockIndex)

/-- The entry followed by its ancestors. -/
def chain : List IndexEntry := pindex.toIndexEntry :: pindex.ancestors

/-- The predecessor, null for the first entry of the chain. -/
def pprev : Option CBlockIndex :=
  match pindex.ancestors with
  | [] => none
  | entry :: ancestors => some ⟨entry, ancestors⟩

/-- The ancestor at a height, the entry itself included; null outside the chain. -/
def getAncestor (height : Int) : Option CBlockIndex :=
  if height > pindex.nHeight ∨ height < 0 then none
  else match pindex.chain.drop (pindex.nHeight - height).toNat with
    | [] => none
    | entry :: ancestors => some ⟨entry, ancestors⟩

/-- `GetBlockHeader()`: the header without its merged-mining proof. -/
def getBlockHeader : CBlockHeader where
  nVersion := pindex.nVersion
  hashPrevBlock := (pindex.ancestors.head?.map IndexEntry.phashBlock).getD 0
  hashMerkleRoot := pindex.hashMerkleRoot
  nTime := pindex.nTime
  nBits := pindex.nBits
  nNonce := pindex.nNonce
  auxpow := none

def getMedianTimePast : Int :=
  medianTime ((pindex.chain.map IndexEntry.getBlockTime).take medianTimeSpan)

end CBlockIndex

/-- `GetBlockProof` of an entry or header with the given target: the expected number of hashes,
`~target / (target + 1) + 1`. -/
def getBlockProof (nBits : UInt32) : ArithUint256 :=
  let compact := ArithUint256.setCompactFlags nBits
  if compact.fNegative || compact.fOverflow || compact.target = 0 then 0
  else (~~~compact.target) / (compact.target + 1) + 1

section

variable [Crypto]

/-- The entry `AddToBlockIndex` makes for a header on top of its predecessor. -/
def CBlockIndex.extend (pindexPrev : CBlockIndex) (header : CBlockHeader) : CBlockIndex where
  phashBlock := header.getHash
  nHeight := pindexPrev.nHeight + 1
  nChainWork := pindexPrev.nChainWork + getBlockProof header.nBits
  nVersion := header.nVersion
  hashMerkleRoot := header.hashMerkleRoot
  nTime := header.nTime
  nBits := header.nBits
  nNonce := header.nNonce
  ancestors := pindexPrev.chain

/-- The last entry of a chain that continues an entry by a list of headers. -/
def CBlockIndex.extendAll (pindex : CBlockIndex) (headers : List CBlockHeader) : CBlockIndex :=
  headers.foldl CBlockIndex.extend pindex

namespace CBlockIndex

variable (pindex : CBlockIndex) (header : CBlockHeader) (headers : List CBlockHeader)

@[simp] lemma extendAll_nil : pindex.extendAll [] = pindex := rfl

@[simp] lemma extendAll_cons :
    pindex.extendAll (header :: headers) = (pindex.extend header).extendAll headers := rfl

lemma extendAll_append (headers' : List CBlockHeader) :
    pindex.extendAll (headers ++ headers') = (pindex.extendAll headers).extendAll headers' :=
  List.foldl_append

lemma extendAll_concat (header : CBlockHeader) :
    pindex.extendAll (headers ++ [header]) = (pindex.extendAll headers).extend header :=
  extendAll_append pindex headers [header]

lemma extend_getBlockHeader {pindex : CBlockIndex} {header : CBlockHeader}
    (hprev : header.hashPrevBlock = pindex.phashBlock) :
    (pindex.extend header).getBlockHeader.toCPureBlockHeader = header.toCPureBlockHeader := by
  simp [extend, getBlockHeader, chain, hprev.symm]

@[simp] lemma extend_chain :
    (pindex.extend header).chain = (pindex.extend header).toIndexEntry :: pindex.chain := rfl

lemma extendAll_nHeight : (pindex.extendAll headers).nHeight = pindex.nHeight + headers.length := by
  induction headers generalizing pindex with
  | nil => simp
  | cons header headers ih =>
    rw [extendAll_cons, ih, extend, List.length_cons]
    push_cast
    ring

end CBlockIndex

end

/-- An entry without predecessor, for concrete chains. -/
def firstEntry : CBlockIndex where
  phashBlock := 1
  nHeight := 0
  nChainWork := 1
  nVersion := 1
  hashMerkleRoot := 0
  nTime := 1600000000
  nBits := 0x2001ffff
  nNonce := 0
  ancestors := []

end Tidecoin
