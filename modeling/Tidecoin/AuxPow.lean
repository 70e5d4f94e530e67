import Tidecoin.Lib.Search
import Tidecoin.Params
import Tidecoin.Primitives

/-!
The merged-mining proof check of `auxpow.cpp`. The check commits an auxiliary block to a parent
coinbase: the script of its first input holds a marker, right behind it the root of a Merkle tree
of auxiliary blocks, and behind the root the size of that tree and a nonce that fixes the slot of
each chain in it. A coinbase therefore leaves no freedom in the root, the height of the tree or
the slot, and the auxiliary block is the only one of its chain the coinbase can prove.
-/

namespace Tidecoin

open Lib

def pchMergedMiningHeader : Bytes := [0xfa, 0xbe, 0x6d, 0x6d]

/-- `DecodeLE32` of the four bytes at a position. -/
def decodeLE32 (script : Bytes) (position : Nat) : Nat := leToNat ((script.drop position).take 4)

namespace CAuxPow

/-- The slot of a chain in a tree of height `h`. The arithmetic is that of `uint64_t`. -/
def getExpectedIndex (nNonce : Nat) (nChainId : Int) (h : Nat) : Int :=
  let mod := 2 ^ h
  let rand : Nat := (nNonce * 1103515245 + 12345) % 2 ^ 64 % mod
  let rand : Nat := ((rand + nChainId) % 2 ^ 64).toNat
  let rand : Nat := (rand * 1103515245 + 12345) % 2 ^ 64 % mod
  rand

variable [Crypto]

def checkMerkleBranch (hash : Uint256) (vMerkleBranch : List Uint256) (nIndex : Int) : Uint256 :=
  if nIndex = -1 then 0 else foldBranch hashPair hash vMerkleBranch nIndex

section

variable (auxpow : CAuxPow) (hashAuxBlock : Uint256)
include hashAuxBlock

/-- The bytes of the chain Merkle root as the coinbase spells them. -/
def vchRootHash : Bytes :=
  (checkMerkleBranch hashAuxBlock auxpow.vChainMerkleBranch
    auxpow.nChainIndex.toInt).toBytes.reverse

/-- The part of the check that reads the coinbase script. -/
def checkScript (nChainId : Int) (script : Bytes) : Bool :=
  match search (auxpow.vchRootHash hashAuxBlock) script, search pchMergedMiningHeader script with
  | none, _ => false
  | some _, none => false
  | some pc, some pcHead =>
    if (search pchMergedMiningHeader (script.drop (pcHead + 1))).isSome then false
    else if pcHead + pchMergedMiningHeader.length ≠ pc then false
    else if script.length - (pc + 32) < 8 then false
    else if decodeLE32 script (pc + 32) ≠ 2 ^ auxpow.vChainMerkleBranch.length then false
    else auxpow.nChainIndex.toInt = getExpectedIndex (decodeLE32 script (pc + 36)) nChainId
      auxpow.vChainMerkleBranch.length

def check (nChainId : Int) (params : Params) : Bool :=
  if params.fStrictChainId && auxpow.parentBlock.getChainId > 0 &&
      auxpow.parentBlock.getChainId = params.nAuxpowChainId then false
  else if auxpow.vChainMerkleBranch.length > 30 then false
  else if checkMerkleBranch auxpow.coinbaseTx.getHash auxpow.vMerkleBranch 0 ≠
      auxpow.parentBlock.hashMerkleRoot then false
  else match auxpow.coinbaseTx.vin with
    | [] => false
    | txin :: _ => auxpow.checkScript hashAuxBlock nChainId txin.scriptSig

end

omit [Crypto] in
lemma getExpectedIndex_nonneg (nNonce : Nat) (nChainId : Int) (h : Nat) :
    0 ≤ getExpectedIndex nNonce nChainId h := by
  exact Int.natCast_nonneg _

/-- What an accepted coinbase script fixes: the root stands four bytes behind the first marker,
the length of the chain branch is read behind the root, and the chain index behind that. -/
structure ScriptCommits (auxpow : CAuxPow) (hashAuxBlock : Uint256) (nChainId : Int)
    (script : Bytes) (pcHead : Nat) : Prop where
  marker : search pchMergedMiningHeader script = some pcHead
  root : auxpow.vchRootHash hashAuxBlock = (script.drop (pcHead + 4)).take 32
  height : 2 ^ auxpow.vChainMerkleBranch.length = decodeLE32 script (pcHead + 36)
  index : auxpow.nChainIndex.toInt = getExpectedIndex (decodeLE32 script (pcHead + 40)) nChainId
    auxpow.vChainMerkleBranch.length

lemma vchRootHash_length (auxpow : CAuxPow) (hashAuxBlock : Uint256) :
    (auxpow.vchRootHash hashAuxBlock).length = 32 := by
  simp [vchRootHash]

variable {auxpow : CAuxPow} {hashAuxBlock : Uint256}

lemma scriptCommits_of_checkScript {nChainId : Int} {script : Bytes}
    (hcheck : auxpow.checkScript hashAuxBlock nChainId script) :
    ∃ pcHead, ScriptCommits auxpow hashAuxBlock nChainId script pcHead := by
  simp only [checkScript] at hcheck
  split at hcheck
  case h_1 => cases hcheck
  case h_2 => cases hcheck
  case h_3 pc pcHead hroot hmarker =>
    simp only [Bool.if_false_left, Bool.and_eq_true, Bool.not_eq_true', decide_eq_true_eq,
      decide_eq_false_iff_not, not_not, pchMergedMiningHeader, List.length_cons,
      List.length_nil] at hcheck
    obtain ⟨-, hadjacent, -, hheight, hindex⟩ := hcheck
    have hpc : pc = pcHead + 4 := by omega
    subst hpc
    refine ⟨pcHead, hmarker, ?_, hheight.symm, hindex⟩
    have htake := search_eq_take hroot
    rwa [vchRootHash_length] at htake

lemma checkScript_of_check {nChainId : Int} {params : Params}
    (hcheck : auxpow.check hashAuxBlock nChainId params) :
    ∃ txin rest, auxpow.coinbaseTx.vin = txin :: rest ∧
      auxpow.checkScript hashAuxBlock nChainId txin.scriptSig := by
  simp only [check, Bool.if_false_left, Bool.and_eq_true] at hcheck
  obtain ⟨-, -, -, hscript⟩ := hcheck
  split at hscript
  case h_1 => cases hscript
  case h_2 txin rest hvin => exact ⟨txin, rest, hvin, hscript⟩

lemma ScriptCommits.vchRootHash_eq {nChainId : Int} {script : Bytes} {pcHead : Nat}
    (hcommits : ScriptCommits auxpow hashAuxBlock nChainId script pcHead) :
    auxpow.vchRootHash hashAuxBlock = (foldBranch hashPair hashAuxBlock auxpow.vChainMerkleBranch
        auxpow.nChainIndex.toInt).toBytes.reverse := by
  have hnonneg := getExpectedIndex_nonneg (decodeLE32 script (pcHead + 40)) nChainId
    auxpow.vChainMerkleBranch.length
  rw [← hcommits.index] at hnonneg
  rw [vchRootHash, checkMerkleBranch, if_neg (by omega)]

/-- The pairs hashed while the chain branch of a proof is folded. -/
def chainPairs (auxpow : CAuxPow) (hashAuxBlock : Uint256) : List (Uint256 × Uint256) :=
  branchPairs hashPair hashAuxBlock auxpow.vChainMerkleBranch auxpow.nChainIndex.toInt

/-- A parent coinbase proves at most one auxiliary block of a chain, whatever branches, chain
index and parent header go with it, as long as the pair hash has no collision among the pairs the
two proofs hash. -/
theorem check_auxBlock_unique {auxpow auxpow' : CAuxPow} {hashAuxBlock hashAuxBlock' : Uint256}
    {nChainId : Int} {params : Params} (hcoinbase : auxpow.coinbaseTx = auxpow'.coinbaseTx)
    (hinj : Set.InjOn (fun pair : Uint256 × Uint256 => hashPair pair.1 pair.2)
      { pair | pair ∈ auxpow.chainPairs hashAuxBlock ∨ pair ∈ auxpow'.chainPairs hashAuxBlock' })
    (hcheck : auxpow.check hashAuxBlock nChainId params = true)
    (hcheck' : auxpow'.check hashAuxBlock' nChainId params = true) :
    hashAuxBlock = hashAuxBlock' := by
  obtain ⟨txin, rest, hvin, hscript⟩ := checkScript_of_check hcheck
  obtain ⟨txin', rest', hvin', hscript'⟩ := checkScript_of_check hcheck'
  rw [← hcoinbase, hvin] at hvin'
  cases hvin'
  obtain ⟨pcHead, hcommits⟩ := scriptCommits_of_checkScript hscript
  obtain ⟨pcHead', hcommits'⟩ := scriptCommits_of_checkScript hscript'
  have hhead : pcHead = pcHead' := Option.some_inj.1 (hcommits.marker.symm.trans hcommits'.marker)
  subst hhead
  have hlen : auxpow.vChainMerkleBranch.length = auxpow'.vChainMerkleBranch.length :=
    Nat.pow_right_injective (le_refl 2) (hcommits.height.trans hcommits'.height.symm)
  have hindex : auxpow'.nChainIndex.toInt = auxpow.nChainIndex.toInt := by
    rw [hcommits.index, hcommits'.index, hlen]
  have hbytes := hcommits.root.trans hcommits'.root.symm
  rw [hcommits.vchRootHash_eq, hcommits'.vchRootHash_eq, hindex] at hbytes
  have hroot := Uint256.toBytes_injective (List.reverse_injective hbytes)
  simp only [chainPairs, hindex] at hinj
  exact foldBranch_leaf_unique hashPair hlen hinj hroot

omit [Crypto]

/-- A coinbase that commits to the block with hash 7 in a tree of two chains. -/
def sampleCoinbase : CTransaction where
  vin := [{ prevout := ⟨0, 0xffffffff⟩
            scriptSig := pchMergedMiningHeader ++
              (@hashPair Crypto.digits 5 7).toBytes.reverse ++ [2, 0, 0, 0, 3, 0, 0, 0]
            nSequence := 0
            scriptWitness := [] }]
  vout := []
  version := 1
  nLockTime := 0

/-- A proof built on `sampleCoinbase`, for any nonce of the parent header. -/
def sampleProof (nNonce : UInt32) : CAuxPow where
  coinbaseTx := sampleCoinbase
  vMerkleBranch := []
  vChainMerkleBranch := [5]
  nChainIndex := 1
  parentBlock := ⟨1, 0, @CTransaction.getHash Crypto.digits sampleCoinbase, 0, 0, nNonce⟩

theorem check_auxBlock_unique_sampleProof :
    @check Crypto.digits (sampleProof 0) 7 8 mainParams = true ∧
      @check Crypto.digits (sampleProof 1) 7 8 mainParams = true ∧ (7 : Uint256) = 7 := by
  have hfirst : @check .digits (sampleProof 0) 7 8 mainParams := by decide +kernel
  have hsecond : @check .digits (sampleProof 1) 7 8 mainParams := by decide +kernel
  refine ⟨hfirst, hsecond, @check_auxBlock_unique .digits (sampleProof 0) (sampleProof 1) 7 7
    8 mainParams rfl ?_ hfirst hsecond⟩
  intro pair hpair pair' hpair' _
  simp only [chainPairs, sampleProof, branchPairs, or_self, Set.mem_ofPred_eq,
    List.mem_singleton] at hpair hpair'
  rw [hpair, hpair']

end CAuxPow

end Tidecoin
