import Tidecoin.Validation.Block

/-!
Two blocks that differ only in their merged-mining proof. The proof is not committed to by the block
hash, so a failure that depends on it must be reported as a mutation: otherwise a third party could
attach another proof to a valid block and make a node reject its hash for good. Every other failure
of the block checks is one of the header and the transactions, and shared by both blocks.
-/

namespace Tidecoin

open Lib

variable [Crypto]

/-- `CheckBlock` at the height after the predecessor followed by `ContextualCheckBlock`, for a block
that was just read. -/
def checkReceivedBlock (block : CBlock) (params : Params) (pindexPrev : CBlockIndex) :
    Except BlockInvalid Unit :=
  match checkBlock block params true true (some (pindexPrev.nHeight + 1)) BlockCache.fresh with
  | (.error invalid, _) => .error invalid
  | (.ok _, cache) => (contextualCheckBlock block params (some pindexPrev) cache).1

/-- `CheckWitnessMalleation` without a cached success. -/
def checkWitnessData (block : CBlock) (expectWitnessCommitment : Bool) : Except BlockInvalid Unit :=
  match expectWitnessCommitment, block.vtx, getWitnessCommitmentIndex block with
  | true, coinbase :: _, some commitpos => witnessCommitmentMatches block coinbase commitpos
  | _, _, _ => noWitness block

omit [Crypto] in
lemma cachedCheck_fst (check : Except BlockInvalid Unit) (stored cache : BlockCache) :
    (cachedCheck false check stored cache).1 = check := by
  cases check <;> rfl

variable (block : CBlock) (expectWitnessCommitment : Bool)

lemma checkWitnessMalleation_fst {cache : BlockCache}
    (hcache : cache.checkedWitnessCommitment = false) :
    (checkWitnessMalleation block expectWitnessCommitment cache).1 =
      checkWitnessData block expectWitnessCommitment := by
  unfold checkWitnessMalleation checkWitnessData
  rw [hcache, Bool.and_false, if_neg nofun]
  generalize block.vtx = vtx, getWitnessCommitmentIndex block = commitpos
  cases expectWitnessCommitment with
  | false => rfl
  | true =>
    cases vtx with
    | nil => rfl
    | cons coinbase vtx =>
      cases commitpos with
      | none => rfl
      | some commitpos => exact cachedCheck_fst _ _ _

lemma contextualCheckBlock_fst (params : Params) (pindexPrev : Option CBlockIndex)
    {cache : BlockCache}
    (hcache : cache.checkedWitnessCommitment = false) :
    (contextualCheckBlock block params pindexPrev cache).1 = (do
      checkBlockContext block params pindexPrev
      checkWitnessData block (deploymentActiveAfter pindexPrev params.segwitHeight)
      checkBlockWeight block) := by
  rw [← checkWitnessMalleation_fst block _ hcache, contextualCheckBlock]
  cases checkBlockContext block params pindexPrev with
  | error invalid => rfl
  | ok _ =>
    generalize checkWitnessMalleation block _ cache = checked
    obtain ⟨result, after⟩ := checked
    cases result <;> rfl

lemma checkReceivedBlock_eq (params : Params) (pindexPrev : CBlockIndex) :
    checkReceivedBlock block params pindexPrev = (do
      checkBlockHeader block.toCBlockHeader params true (some (pindexPrev.nHeight + 1))
      merkleRootMatches block
      checkBlockBody block
      checkBlockContext block params (some pindexPrev)
      checkWitnessData block (deploymentActiveAfter pindexPrev params.segwitHeight)
      checkBlockWeight block) := by
  have hfresh : BlockCache.fresh.fChecked = false := rfl
  rw [checkReceivedBlock, checkBlock, checkBlockImpl, hfresh, if_neg nofun,
    if_neg nofun, if_pos rfl, checkMerkleRoot]
  cases checkBlockHeader block.toCBlockHeader params true (some (pindexPrev.nHeight + 1)) with
  | error invalid => rfl
  | ok _ =>
    cases merkleRootMatches block with
    | error invalid => rfl
    | ok _ =>
      cases checkBlockBody block with
      | error invalid => rfl
      | ok _ => exact contextualCheckBlock_fst block params pindexPrev rfl

/-- The failure is not put down to a mutation of the block. -/
def Firm (invalid : BlockInvalid) : Prop := invalid.result ≠ .mutated

lemma isSome_of_checkBlockHeader {block : CBlockHeader} {params : Params} {height : Option Int}
    {value : Unit} (hcheck : checkBlockHeader block params true height = .ok value) :
    block.isAuxpow = block.auxpow.isSome := by
  obtain ⟨_, hcontext, -⟩ := bind_eq_ok.1 hcheck
  obtain ⟨_, hmissing, hrest⟩ := bind_eq_ok.1 hcontext
  obtain ⟨_, hunexpected, -⟩ := bind_eq_ok.1 hrest
  rw [Bool.eq_iff_iff]
  exact ⟨require_eq_ok.1 hmissing, require_eq_ok.1 hunexpected⟩

omit [Crypto] in
lemma soft_of_mutated {condition : Prop} [Decidable condition] {reason message : String} :
    Soft Firm (require condition ⟨.mutated, reason, message⟩) :=
  .require (fun hfirm => hfirm rfl) condition

lemma merkleRootMatches_soft : Soft Firm (merkleRootMatches block) :=
  .bind soft_of_mutated fun _ => soft_of_mutated

lemma checkWitnessData_soft : Soft Firm (checkWitnessData block expectWitnessCommitment) := by
  unfold checkWitnessData
  split
  · exact .bind soft_of_mutated fun _ => soft_of_mutated
  · exact soft_of_mutated

section

variable (header : CPureBlockHeader) {auxpow auxpow' : Option CAuxPow} (vtx : List CTransaction)

/-- The header checks: activation and chain id are properties of the header once both blocks have a
proof exactly if the flag asks for one. -/
theorem checkBlockHeader_inherits (auxpow auxpow' : Option CAuxPow) (params : Params)
    (height : Option Int) :
    Inherits Firm (checkBlockHeader ⟨header, auxpow⟩ params true height)
      (checkBlockHeader ⟨header, auxpow'⟩ params true height) := by
  refine .bind ?_ fun _ _ _ _ => .refl _
  refine .bind (soft_of_mutated.inherits _) fun _ _ _ _ => ?_
  refine .bind (soft_of_mutated.inherits _) fun _ _ hunexpected _ => ?_
  refine .bind (.require ?_ _ _) fun _ _ _ _ => ?_
  · intro hbefore height hheight hrules
    obtain ⟨hflag, -⟩ := hbefore height hheight hrules
    refine ⟨hflag, Bool.eq_false_of_not_eq_true fun hproof => ?_⟩
    exact Bool.false_ne_true (hflag.symm.trans (require_eq_ok.1 hunexpected hproof))
  refine .bind (.refl _) fun _ _ _ _ => ?_
  refine .bind (soft_of_mutated.inherits _) fun _ _ _ _ => ?_
  exact soft_of_mutated.inherits _

variable (hproof : header.isAuxpow = auxpow.isSome) (hproof' : header.isAuxpow = auxpow'.isSome)

omit [Crypto] in
lemma checkBlockSize_soft (hflag : header.isAuxpow) (auxpow : CAuxPow) :
    Soft Firm (checkBlockSize ⟨⟨header, some auxpow⟩, vtx⟩) ∧
      Soft Firm (checkBlockWeight ⟨⟨header, some auxpow⟩, vtx⟩) := by
  have hresult : proofSizeResult ⟨⟨header, some auxpow⟩, vtx⟩ = .mutated := if_pos hflag
  have hserialize : ∀ allowWitness, ∃ bytes,
      CBlock.serialize ⟨⟨header, some auxpow⟩, vtx⟩ allowWitness = some bytes := by
    intro allowWitness
    rw [CBlock.serialize, CBlockHeader.serialize, if_pos hflag]
    exact ⟨_, rfl⟩
  obtain ⟨stripped, hstripped⟩ := hserialize false
  obtain ⟨total, htotal⟩ := hserialize true
  constructor
  · rw [checkBlockSize, hstripped, hresult]
    exact soft_of_mutated
  · rw [checkBlockWeight, hstripped, htotal, hresult]
    exact soft_of_mutated

omit [Crypto] in
include hproof hproof' in
lemma checkBlockSize_inherits : Inherits Firm (checkBlockSize ⟨⟨header, auxpow⟩, vtx⟩)
        (checkBlockSize ⟨⟨header, auxpow'⟩, vtx⟩) ∧
      Inherits Firm (checkBlockWeight ⟨⟨header, auxpow⟩, vtx⟩)
        (checkBlockWeight ⟨⟨header, auxpow'⟩, vtx⟩) := by
  cases auxpow with
  | some auxpow =>
    obtain ⟨hsize, hweight⟩ := checkBlockSize_soft header vtx hproof auxpow
    exact ⟨hsize.inherits _, hweight.inherits _⟩
  | none =>
    cases auxpow' with
    | none => exact ⟨.refl _, .refl _⟩
    | some auxpow' =>
      rw [hproof] at hproof'
      cases hproof'

end

/-- A block that fails the checks for any reason but a mutation has a header and transactions that
fail them with every other proof, or without one. -/
theorem checkReceivedBlock_inherits {block block' : CBlock}
    (hheader : block.toCPureBlockHeader = block'.toCPureBlockHeader) (hvtx : block.vtx = block'.vtx)
    {params : Params} {pindexPrev : CBlockIndex} {invalid : BlockInvalid}
    (hfails : checkReceivedBlock block params pindexPrev = .error invalid)
    (hfirm : invalid.result ≠ .mutated) :
    ∃ invalid', checkReceivedBlock block' params pindexPrev = .error invalid' := by
  obtain ⟨⟨header, auxpow⟩, vtx⟩ := block
  obtain ⟨⟨header', auxpow'⟩, vtx'⟩ := block'
  cases hheader
  cases hvtx
  suffices hinherits : Inherits Firm (checkReceivedBlock ⟨⟨header, auxpow⟩, vtx⟩ params pindexPrev)
      (checkReceivedBlock ⟨⟨header, auxpow'⟩, vtx⟩ params pindexPrev) from
    hinherits invalid hfails hfirm
  rw [checkReceivedBlock_eq, checkReceivedBlock_eq]
  refine .bind (checkBlockHeader_inherits header auxpow auxpow' params _)
    fun _ _ hchecked hchecked' => ?_
  have hproof := isSome_of_checkBlockHeader hchecked
  have hproof' := isSome_of_checkBlockHeader hchecked'
  obtain ⟨hsize, hweight⟩ := checkBlockSize_inherits header vtx hproof hproof'
  refine .bind ((merkleRootMatches_soft _).inherits _) fun _ _ _ _ => ?_
  refine .bind ?_ fun _ _ _ _ => ?_
  · refine .bind (.refl _) fun _ _ _ _ => ?_
    exact .bind hsize fun _ _ _ _ => .refl _
  · refine .bind (.refl _) fun _ _ _ _ => ?_
    exact .bind ((checkWitnessData_soft _ _).inherits _) fun _ _ _ _ => hweight

omit [Crypto]

/-- A block with the merged-mining flag on a network without merged mining. -/
def earlyBlock (auxpow : Option CAuxPow) : CBlock where
  nVersion := 0x20080100
  hashPrevBlock := 1
  hashMerkleRoot := 0
  nTime := 1600000060
  nBits := 0x2001ffff
  nNonce := 0
  auxpow := auxpow
  vtx := []

theorem checkReceivedBlock_inherits_earlyBlock :
    ∃ invalid', @checkReceivedBlock Crypto.digits (earlyBlock none) mainParams firstEntry =
      .error invalid' := by
  have hfails : @checkReceivedBlock .digits (earlyBlock (some (.sampleProof 0)))
      mainParams firstEntry = .error ⟨.invalidHeader, "auxpow-pre-activation",
        "auxpow not allowed before activation"⟩ := by
    rfl
  exact @checkReceivedBlock_inherits .digits (earlyBlock (some (.sampleProof 0)))
    (earlyBlock none) rfl rfl mainParams firstEntry _ hfails (by decide)

end Tidecoin
