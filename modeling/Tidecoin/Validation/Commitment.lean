import Tidecoin.Validation.Malleability
import Tidecoin.Validation.Merkle
import Tidecoin.Validation.UniqueIds

/-!
What the header of a block commits to, and `IsBlockMutated` of `validation.cpp`, which relies on it.
The Merkle root commits to the transactions without their witnesses, and an output of the coinbase
to the witness tree. A block without that output has no witnesses. So two blocks with the same
header, the same coinbase and the same number of transactions are equal, unless a hash collides.
-/

namespace Tidecoin

open Lib List CTransaction

variable [Crypto]

/-- `IsBlockMutated`, with the cached successes of the block. -/
def isBlockMutated (block : CBlock) (checkWitnessRoot : Bool) (cache : BlockCache) : Bool :=
  match checkMerkleRoot block cache with
  | (.error _, _) => true
  | (.ok _, cache) =>
    if block.vtx.head?.any CTransaction.isCoinBase then
      match checkWitnessMalleation block checkWitnessRoot cache with
      | (.error _, _) => true
      | (.ok _, _) => false
    -- Without a coinbase a transaction of 64 bytes could be an inner node of the tree.
    else block.vtx.any fun tx => (tx.serialize false).length = 64

lemma isBlockMutated_eq_false {block : CBlock} {checkWitnessRoot : Bool}
    (hcoinbase : block.vtx.head?.any isCoinBase) :
    isBlockMutated block checkWitnessRoot .fresh = false ↔
      merkleRootMatches block = .ok () ∧ checkWitnessData block checkWitnessRoot = .ok () := by
  rw [isBlockMutated, checkMerkleRoot]
  cases hmerkle : merkleRootMatches block with
  | error invalid => simp [cachedCheck, BlockCache.fresh]
  | ok value =>
    have hwitness := @checkWitnessMalleation_fst _ block checkWitnessRoot
      { BlockCache.fresh with checkedMerkleRoot := true } rfl
    simp only [cachedCheck, BlockCache.fresh, Bool.false_eq_true, if_false, hcoinbase, if_true]
      at hwitness ⊢
    rw [← hwitness]
    generalize checkWitnessMalleation block checkWitnessRoot _ = checked
    obtain ⟨result, cache⟩ := checked
    cases result <;> simp

omit [Crypto] in
/-- The witness of the first input, where a coinbase has the reserved value. -/
def CTransaction.witnessStack (tx : CTransaction) : List Bytes :=
  (tx.vin.head?.map CTxIn.scriptWitness).getD []

namespace CBlock

section

variable (block : CBlock)

def txids : List Uint256 := block.vtx.map CTransaction.getHash

/-- The leaves of the witness tree. -/
def witnessLeaves : List Uint256 := 0 :: (block.vtx.drop 1).map CTransaction.getWitnessHash

/-- The pair the witness commitment is the hash of. -/
def commitmentPair (coinbase : CTransaction) : Uint256 × Uint256 :=
  (blockWitnessMerkleRoot block, Uint256.ofBytes (coinbase.witnessStack.headD []))

/-- All pairs that are hashed for the two commitments. -/
def hashedPairs : List (Uint256 × Uint256) :=
  merklePairs block.txids ++ (merklePairs block.witnessLeaves ++
    (block.vtx.head?.map block.commitmentPair).toList)

end

/-- No hash that identifies the transactions of two blocks collides. -/
structure NoCollision (block other : CBlock) : Prop where
  txid : ∀ tx ∈ block.vtx, ∀ tx' ∈ other.vtx, tx.getHash = tx'.getHash →
    tx.serialize false = tx'.serialize false
  wtxid : ∀ tx ∈ block.vtx, ∀ tx' ∈ other.vtx, tx.getWitnessHash = tx'.getWitnessHash →
    tx.serialize true = tx'.serialize true
  pairs : Set.InjOn (fun pair : Uint256 × Uint256 => hashPair pair.1 pair.2)
    { pair | pair ∈ block.hashedPairs ∨ pair ∈ other.hashedPairs }

namespace NoCollision

variable {block other : CBlock}

variable (hfree : NoCollision block other)
include hfree

lemma txidPairs : Set.InjOn (fun pair : Uint256 × Uint256 => hashPair pair.1 pair.2)
      { pair | pair ∈ merklePairs block.txids ∨ pair ∈ merklePairs other.txids } := by
  apply hfree.pairs.mono
  exact fun pair hpair => hpair.imp (mem_append_left _) (mem_append_left _)

lemma witnessPairs : Set.InjOn (fun pair : Uint256 × Uint256 => hashPair pair.1 pair.2)
      { pair | pair ∈ merklePairs block.witnessLeaves ∨
        pair ∈ merklePairs other.witnessLeaves } := by
  apply hfree.pairs.mono
  intro pair hpair
  apply hpair.imp
  · exact fun hmem => mem_append_right _ (mem_append_left _ hmem)
  · exact fun hmem => mem_append_right _ (mem_append_left _ hmem)

lemma witnessRoot {coinbase : CTransaction}
    (hblock : block.vtx.head? = some coinbase) (hother : other.vtx.head? = some coinbase)
    (hash : hashPair (block.commitmentPair coinbase).1 (block.commitmentPair coinbase).2 =
      hashPair (other.commitmentPair coinbase).1 (other.commitmentPair coinbase).2) :
    blockWitnessMerkleRoot block = blockWitnessMerkleRoot other := by
  have hmem : ∀ {block : CBlock}, block.vtx.head? = some coinbase →
      block.commitmentPair coinbase ∈ block.hashedPairs := by
    intro block hhead
    apply mem_append_right
    apply mem_append_right
    rw [hhead]
    exact mem_singleton_self _
  have hpair := hfree.pairs (Or.inl (hmem hblock)) (Or.inr (hmem hother)) hash
  exact (Prod.mk.inj hpair).1

end NoCollision

end CBlock

variable {block other : CBlock} {coinbase : CTransaction} {vtx vtx' : List CTransaction}

lemma txids_of_merkleRoot (hfree : block.NoCollision other)
    (hlength : block.vtx.length = other.vtx.length)
    (hheader : block.hashMerkleRoot = other.hashMerkleRoot)
    (hblock : merkleRootMatches block = .ok ())
    (hother : merkleRootMatches other = .ok ()) : block.txids = other.txids := by
  obtain ⟨_, hroot, -⟩ := bind_eq_ok.1 hblock
  obtain ⟨_, hroot', -⟩ := bind_eq_ok.1 hother
  apply computeMerkleRoot_injective hfree.txidPairs
  · simpa [CBlock.txids] using hlength
  · have heq := (require_eq_ok.1 hroot).symm.trans (hheader.trans (require_eq_ok.1 hroot'))
    exact heq

omit [Crypto] in
lemma output_of_commitmentIndex {commitpos : Nat} (hvtx : block.vtx = coinbase :: vtx)
    (hindex : getWitnessCommitmentIndex block = some commitpos) :
    ∃ txout, coinbase.vout[commitpos]? = some txout := by
  rw [getWitnessCommitmentIndex, hvtx] at hindex
  obtain ⟨⟨txout, index⟩, hlast, rfl⟩ := Option.map_eq_some_iff.1 hindex
  have hmem := (mem_filter.1 (mem_of_getLast? hlast)).1
  exact ⟨txout, mem_zipIdx_iff_getElem?.1 hmem⟩

lemma commitment_of_matches {commitpos : Nat} {txout : CTxOut}
    (hmatches : witnessCommitmentMatches block coinbase commitpos = .ok ())
    (hout : coinbase.vout[commitpos]? = some txout) :
    hashPair (block.commitmentPair coinbase).1 (block.commitmentPair coinbase).2 =
      Uint256.ofBytes ((txout.scriptPubKey.drop 6).take 32) := by
  obtain ⟨_, hsize, hcommitted⟩ := bind_eq_ok.1 hmatches
  have hlengths : coinbase.witnessStack.map length = [32] := require_eq_ok.1 hsize
  have hreserved : (coinbase.witnessStack.headD []).length = 32 := by
    obtain ⟨reserved, hstack, hlength⟩ := map_eq_singleton_iff.1 hlengths
    rw [hstack]
    exact hlength
  have hcommitment := require_eq_ok.1 hcommitted txout hout
  rw [hcommitment, hashPair, hashBytes, CBlock.commitmentPair, Uint256.toBytes_ofBytes hreserved]
  rfl

lemma witnesses_of_commitment (hfree : block.NoCollision other) (hvtx : block.vtx = coinbase :: vtx)
    (hvtx' : other.vtx = coinbase :: vtx') (hlength : vtx.length = vtx'.length)
    (hblock : checkWitnessData block true = .ok ())
    (hother : checkWitnessData other true = .ok ()) :
    vtx.map getWitnessHash = vtx'.map getWitnessHash ∨
      (∀ tx ∈ block.vtx, tx.hasWitness = false) ∧ ∀ tx ∈ other.vtx, tx.hasWitness = false := by
  have hindex : getWitnessCommitmentIndex other = getWitnessCommitmentIndex block := by
    rw [getWitnessCommitmentIndex, getWitnessCommitmentIndex, hvtx, hvtx']
  cases hcommit : getWitnessCommitmentIndex block with
  | none =>
    simp only [checkWitnessData, hvtx, hvtx', hindex, hcommit] at hblock hother
    exact .inr ⟨require_eq_ok.1 hblock, require_eq_ok.1 hother⟩
  | some commitpos =>
    simp only [checkWitnessData, hvtx, hvtx', hindex, hcommit] at hblock hother
    obtain ⟨txout, hout⟩ := output_of_commitmentIndex hvtx hcommit
    have hroot : blockWitnessMerkleRoot block = blockWitnessMerkleRoot other := by
      apply hfree.witnessRoot (by rw [hvtx]; rfl) (by rw [hvtx']; rfl)
      rw [commitment_of_matches hblock hout, commitment_of_matches hother hout]
    have hleaves : block.witnessLeaves = other.witnessLeaves := by
      apply computeMerkleRoot_injective hfree.witnessPairs _ hroot
      simp [CBlock.witnessLeaves, hvtx, hvtx', hlength]
    left
    simpa [CBlock.witnessLeaves, hvtx, hvtx'] using hleaves

lemma vtx_of_commitments (hfree : block.NoCollision other)
    (hreadable : ∀ tx ∈ block.vtx, tx.vin ≠ [] ∧ (tx.serialize true).length ≤ maxSize)
    (hvtx : block.vtx = coinbase :: vtx) (hvtx' : other.vtx = coinbase :: vtx')
    (hlength : vtx.length = vtx'.length) (hheader : block.hashMerkleRoot = other.hashMerkleRoot)
    (hblock : merkleRootMatches block = .ok () ∧ checkWitnessData block true = .ok ())
    (hother : merkleRootMatches other = .ok () ∧ checkWitnessData other true = .ok ()) :
    block.vtx = other.vtx := by
  have htxids : block.txids = other.txids := by
    apply txids_of_merkleRoot hfree _ hheader hblock.1 hother.1
    rw [hvtx, hvtx', length_cons, length_cons, hlength]
  -- Equal ids leave only the witnesses open.
  have hstripped : ∀ tx ∈ block.vtx, ∀ tx' ∈ other.vtx, tx.getHash = tx'.getHash →
      tx.stripped = tx'.stripped := by
    intro tx htx tx' htx' hid
    obtain ⟨hvin, hsize⟩ := hreadable tx htx
    apply stripped_of_serialize_false hvin
    · exact (serialize_false_length_le tx).trans hsize
    · exact hfree.txid tx htx tx' htx' hid
  rcases witnesses_of_commitment hfree hvtx hvtx' hlength hblock.2 hother.2 with hwtxids | hnone
  · have hids : vtx.map getHash = vtx'.map getHash := by
      simpa [CBlock.txids, hvtx, hvtx'] using htxids
    have hboth : vtx.map (fun tx => (tx.getHash, tx.getWitnessHash)) =
        vtx'.map fun tx => (tx.getHash, tx.getWitnessHash) := by
      rw [← zip_map', ← zip_map', hids, hwtxids]
    rw [hvtx, hvtx']
    congr 1
    apply eq_of_map_eq _ hboth
    intro tx htx tx' htx' heq
    have hmem : tx ∈ block.vtx := hvtx ▸ mem_cons_of_mem _ htx
    have hmem' : tx' ∈ other.vtx := hvtx' ▸ mem_cons_of_mem _ htx'
    obtain ⟨hid, hwtxid⟩ := Prod.mk.inj heq
    obtain ⟨hvin, hsize⟩ := hreadable tx hmem
    have hserialize := hfree.wtxid tx hmem tx' hmem' hwtxid
    have hvin' : tx'.vin ≠ [] := by
      intro hnil
      have hinputs := congrArg vin (hstripped tx hmem tx' hmem' hid)
      simp only [stripped, hnil, map_nil, map_eq_nil_iff] at hinputs
      exact hvin hinputs
    apply eq_of_serialize_true (.of_size hvin hsize) _ hserialize
    apply Readable.of_size hvin'
    rwa [← hserialize]
  · apply eq_of_map_eq _ htxids
    intro tx htx tx' htx' hid
    rw [← stripped_of_hasWitness (hnone.1 tx htx), hstripped tx htx tx' htx' hid,
      stripped_of_hasWitness (hnone.2 tx' htx')]

end Tidecoin
