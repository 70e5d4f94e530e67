import Tidecoin.Script.Monotone
import Tidecoin.Validation.Block

/-!
The script flags of `validation.cpp`: those a block is connected with, those the mempool checks
transactions with, and the check of one input. The policy flags contain the flags of every block at
the same height and have the same activation rules, so by `ScriptFlags.Relaxes.verifyScript` an
input that passes the policy check passes the check of the next block.
-/

namespace Tidecoin

open Lib Finset

def getAuxpowScriptFlags (height : Int) (params : Params) : Finset ScriptFlag :=
  if height ≥ params.nAuxpowStartHeight then auxpowScriptFlags else ∅

/-- The flag of a deployment that is active at a block. -/
def deploymentFlag (pindex : CBlockIndex) (deploymentHeight : Int) (flag : ScriptFlag) :
    Finset ScriptFlag :=
  if deploymentActiveAt pindex deploymentHeight then {flag} else ∅

/-- The flags that are on for a block unless it is listed as an exception. -/
def alwaysOnFlags (params : Params) (hash : Uint256) : Finset ScriptFlag :=
  match params.scriptFlagExceptions.find? (·.1 = hash) with
  | none => {.p2sh, .witness}
  | some exception => exception.2

/-- The flags of a block apart from the activation rules. -/
def deployedFlags (params : Params) (pindex : CBlockIndex) : Finset ScriptFlag :=
  alwaysOnFlags params pindex.phashBlock ∪
    (deploymentFlag pindex params.bip65Height .checklocktimeverify ∪
      (deploymentFlag pindex params.csvHeight .checksequenceverify ∪
        deploymentFlag pindex params.segwitHeight .nulldummy))

lemma getAuxpowScriptFlags_subset (height : Int) (params : Params) :
    getAuxpowScriptFlags height params ⊆ auxpowScriptFlags := by
  unfold getAuxpowScriptFlags
  split
  · exact Subset.refl _
  · exact empty_subset _

lemma deploymentFlag_subset (pindex : CBlockIndex) (deploymentHeight : Int)
    {flag : ScriptFlag} {flags : Finset ScriptFlag} (hflag : flag ∈ flags) :
    deploymentFlag pindex deploymentHeight flag ⊆ flags := by
  unfold deploymentFlag
  split
  · exact singleton_subset_iff.2 hflag
  · exact empty_subset _

lemma alwaysOnFlags_spec (params : Params) (hash : Uint256) :
    alwaysOnFlags params hash ⊆ {.p2sh, .witness} ∧
      (.witness ∈ alwaysOnFlags params hash → .p2sh ∈ alwaysOnFlags params hash) := by
  unfold alwaysOnFlags
  split
  · exact ⟨Subset.refl _, fun _ => by decide⟩
  case h_2 exception hfind =>
    exact params.exceptionsRelax exception (List.mem_of_find?_eq_some hfind)

lemma deployedFlags_subset (params : Params) (pindex : CBlockIndex) :
    deployedFlags params pindex ⊆ mandatoryScriptVerifyFlags := by
  have halways : alwaysOnFlags params pindex.phashBlock ⊆ mandatoryScriptVerifyFlags :=
    (alwaysOnFlags_spec params pindex.phashBlock).1.trans (by decide)
  refine union_subset halways (union_subset ?_ (union_subset ?_ ?_))
  · exact deploymentFlag_subset _ _ (by decide)
  · exact deploymentFlag_subset _ _ (by decide)
  · exact deploymentFlag_subset _ _ (by decide)

lemma deployedFlags_witness {params : Params} {pindex : CBlockIndex}
    (hwitness : .witness ∈ deployedFlags params pindex) : .p2sh ∈ deployedFlags params pindex := by
  refine mem_union_left _ ((alwaysOnFlags_spec params pindex.phashBlock).2 ?_)
  rcases mem_union.1 hwitness with halways | hdeployed
  · exact halways
  · have hsubset : deploymentFlag pindex params.bip65Height .checklocktimeverify ∪
        (deploymentFlag pindex params.csvHeight .checksequenceverify ∪
          deploymentFlag pindex params.segwitHeight .nulldummy) ⊆
        ({.checklocktimeverify, .checksequenceverify, .nulldummy} : Finset ScriptFlag) :=
      union_subset (deploymentFlag_subset _ _ (by decide))
        (union_subset (deploymentFlag_subset _ _ (by decide)) (deploymentFlag_subset _ _
          (by decide)))
    exact absurd (hsubset hdeployed) (by decide)

section

variable (params : Params) (pindex : CBlockIndex)

/-- The flags of a block and the activation rules of a height. -/
def withActivation (height : Int) : ScriptFlags where
  flags := deployedFlags params pindex ∪ getAuxpowScriptFlags height params
  cleanstackRule hmem := by
    rcases Finset.mem_union.1 hmem with hdeployed | hauxpow
    · exact absurd (deployedFlags_subset params pindex hdeployed) (by decide)
    · exact absurd (getAuxpowScriptFlags_subset height params hauxpow) (by decide)
  witnessRule hmem := by
    rcases Finset.mem_union.1 hmem with hdeployed | hauxpow
    · exact Finset.mem_union_left _ (deployedFlags_witness hdeployed)
    · exact absurd (getAuxpowScriptFlags_subset height params hauxpow) (by decide)

def getBlockScriptFlags : ScriptFlags := withActivation params pindex pindex.nHeight

lemma flags_sdiff_union (height : Int) :
    ((getBlockScriptFlags params pindex).flags \ auxpowScriptFlags) ∪
        getAuxpowScriptFlags height params = (withActivation params pindex height).flags := by
  have hdisjoint : Disjoint (deployedFlags params pindex) auxpowScriptFlags :=
    disjoint_of_subset_left (deployedFlags_subset params pindex) (by decide)
  have hauxpow := sdiff_eq_empty_iff_subset.2 (getAuxpowScriptFlags_subset pindex.nHeight params)
  rw [getBlockScriptFlags, withActivation, withActivation, union_sdiff_distrib,
    sdiff_eq_self_of_disjoint hdisjoint, hauxpow, union_empty]

end

def getMempoolScriptFlags (params : Params) (tip : CBlockIndex) : ScriptFlags where
  flags := ((getBlockScriptFlags params tip).flags \ auxpowScriptFlags) ∪
    getAuxpowScriptFlags (tip.nHeight + 1) params
  cleanstackRule := by
    rw [flags_sdiff_union]
    exact (withActivation params tip (tip.nHeight + 1)).cleanstackRule
  witnessRule := by
    rw [flags_sdiff_union]
    exact (withActivation params tip (tip.nHeight + 1)).witnessRule

/-- The flags of `PolicyScriptChecks`, for the height of the next block. -/
def policyScriptFlags (params : Params) (nextHeight : Int) : ScriptFlags where
  flags := (standardScriptVerifyFlags ∪ {.definedHashtype}) ∪ getAuxpowScriptFlags nextHeight params
  cleanstackRule _ := ⟨Finset.mem_union_left _ (by decide), Finset.mem_union_left _ (by decide)⟩
  witnessRule _ := Finset.mem_union_left _ (by decide)

/-- The policy flags at a height restrict the flags of any block under the rules of that height. -/
theorem relaxes_policyScriptFlags {params : Params} {pindex : CBlockIndex} {height : Int}
    {flags : ScriptFlags} (hflags : flags.flags = (withActivation params pindex height).flags) :
    flags.Relaxes (policyScriptFlags params height) where
  subset := by
    rw [hflags]
    exact union_subset_union ((deployedFlags_subset params pindex).trans (by decide))
      (Subset.refl _)
  activation flag hactivation hmem := by
    rw [hflags]
    rcases mem_union.1 hmem with hpolicy | hauxpow
    · have hdisjoint : Disjoint (standardScriptVerifyFlags ∪ {.definedHashtype})
          auxpowScriptFlags := by decide
      exact absurd hactivation (disjoint_left.1 hdisjoint hpolicy)
    · exact mem_union_right _ hauxpow

/-- `CScriptCheck`: an input with the output it spends. The checker reads the transaction, and
accepts legacy signatures or not. -/
structure CScriptCheck where
  scriptSig : Bytes
  scriptPubKey : Bytes
  witness : List Bytes
  checker : (allowLegacy : Bool) → SignatureChecker

/-- `CScriptCheck::operator()`. -/
def CScriptCheck.run [Crypto] (check : CScriptCheck) (nFlags : ScriptFlags) :
    Except ScriptError Unit :=
  verifyScript nFlags (check.checker (!nFlags.has .pqStrict)) check.scriptSig check.scriptPubKey
    check.witness

lemma CScriptCheck.run_of_relaxes [Crypto] (check : CScriptCheck) {flags flags' : ScriptFlags}
    (hflags : flags.Relaxes flags') (hstrict : check.run flags' = .ok ()) :
    check.run flags = .ok () := by
  rw [run, hflags.has_activation (by decide)] at hstrict
  exact hflags.verifyScript _ _ _ _ _ hstrict

/-- More flags only restrict what `verifyScript` accepts. In particular an input that passes the
policy check of the mempool passes the consensus check of the mempool and the check of the next
block, whatever block that is. -/
theorem verifyScript_soft_fork [Crypto] : (∀ flags flags' : ScriptFlags, flags.Relaxes flags' →
      ∀ (checker : SignatureChecker) (scriptSig scriptPubKey : Bytes) (witness : List Bytes),
        verifyScript flags' checker scriptSig scriptPubKey witness = .ok () →
          verifyScript flags checker scriptSig scriptPubKey witness = .ok ()) ∧
    ∀ (params : Params) (tip block : CBlockIndex), block.nHeight = tip.nHeight + 1 →
      ∀ check : CScriptCheck, check.run (policyScriptFlags params (tip.nHeight + 1)) = .ok () →
        check.run (getMempoolScriptFlags params tip) = .ok () ∧
          check.run (getBlockScriptFlags params block) = .ok () := by
  refine ⟨fun flags flags' hflags checker scriptSig scriptPubKey witness hstrict =>
    hflags.verifyScript checker scriptSig scriptPubKey witness _ hstrict, ?_⟩
  intro params tip block hheight check hpolicy
  have hmempool : (getMempoolScriptFlags params tip).Relaxes
      (policyScriptFlags params (tip.nHeight + 1)) :=
    relaxes_policyScriptFlags (flags_sdiff_union params tip (tip.nHeight + 1))
  have hblock : (getBlockScriptFlags params block).Relaxes
      (policyScriptFlags params (tip.nHeight + 1)) := by
    rw [← hheight]
    exact relaxes_policyScriptFlags rfl
  exact ⟨check.run_of_relaxes hmempool hpolicy, check.run_of_relaxes hblock hpolicy⟩

/-- A spend of a key-hash program. The checker accepts one signature, with hash type `ALL`. -/
def keyHashSpend [Crypto] : CScriptCheck where
  scriptSig := []
  scriptPubKey := [op0, 0x14] ++ hash160 [2, 3]
  witness := [[7, 1], [2, 3]]
  checker _ := ⟨fun vchSig vchPubKey _ _ => vchSig = [7, 1] && vchPubKey = [2, 3],
    fun _ => false, fun _ => false⟩

theorem verifyScript_soft_fork_keyHashSpend : let spend := @keyHashSpend .digits
    let policy := policyScriptFlags testNetParams 1000
    (policy.flags ≠ (getBlockScriptFlags testNetParams { firstEntry with nHeight := 1000 }).flags ∧
      @CScriptCheck.run .digits spend policy = .ok ()) ∧
    @verifyScript .digits ⟨{.p2sh, .pqStrict, .witnessV1512, .sha512}, by decide, by decide⟩
      (spend.checker false) spend.scriptSig spend.scriptPubKey spend.witness = .ok () ∧
    @CScriptCheck.run .digits spend
      (getMempoolScriptFlags testNetParams { firstEntry with nHeight := 999 }) = .ok () ∧
    @CScriptCheck.run .digits spend
      (getBlockScriptFlags testNetParams { firstEntry with nHeight := 1000 }) = .ok () := by
  intro spend policy
  have hpolicy : @CScriptCheck.run .digits spend policy = .ok () := by decide +kernel
  refine ⟨⟨by decide +kernel, hpolicy⟩, ?_, ?_⟩
  · refine (@verifyScript_soft_fork .digits).1 _ policy ⟨?_, ?_⟩ _ _ _ _ hpolicy
    · decide +kernel
    · decide +kernel
  · exact (@verifyScript_soft_fork .digits).2 testNetParams _ _ rfl spend hpolicy

end Tidecoin
