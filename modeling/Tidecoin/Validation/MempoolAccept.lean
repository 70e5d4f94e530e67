import Tidecoin.Validation.InputScripts

/-!
The script checks of a transaction that is submitted to the mempool: `MemPoolAccept` of
`validation.cpp`, and the recognition of spent witness programs in `policy/policy.cpp` that tells a
missing witness from other failures.
-/

namespace Tidecoin

open Lib Script

def scriptVerifyNone : ScriptFlags where
  flags := ∅
  cleanstackRule hmem := absurd hmem (Finset.notMem_empty _)
  witnessRule hmem := absurd hmem (Finset.notMem_empty _)

/-- `BaseSignatureChecker{}`, which accepts nothing. -/
def baseSignatureChecker : SignatureChecker :=
  ⟨fun _ _ _ _ => false, fun _ => false, fun _ => false⟩

variable [Crypto]

/-- The redeem script of a spent script hash: what evaluating the scriptSig leaves on top. -/
def redeemScript (scriptSig : Bytes) : Option Bytes :=
  match evalScript scriptVerifyNone baseSignatureChecker .base scriptSig [] with
  | .error _ => none
  | .ok stack => stack.head?

omit [Crypto] in
/-- The script is a witness program of version 0. -/
def isVersionZeroProgram (script : Bytes) : Bool :=
  match Script.isWitnessProgram script with
  | some (version, _) => version = 0
  | none => false

/-- The body of the loop of `SpendsNonAnchorWitnessProg`. -/
def inputSpendsNonAnchor (prevouts : COutPoint → Coin) (txin : CTxIn) : Bool :=
  let prevSpk := (prevouts txin.prevout).out.scriptPubKey
  if (Script.isWitnessProgram prevSpk).isSome then isVersionZeroProgram prevSpk
  else if Script.isPayToScriptHash prevSpk then
    match redeemScript txin.scriptSig with
    | none => false
    | some redeemScript => isVersionZeroProgram redeemScript
  else false

def spendsNonAnchorWitnessProg (tx : CTransaction) (prevouts : COutPoint → Coin) : Bool :=
  if tx.isCoinBase then false else tx.vin.any (inputSpendsNonAnchor prevouts)

/-- The scripts of an input that can be witness programs: the one of the spent output and, for a
script hash, the redeem script. -/
def spentScripts (prevouts : COutPoint → Coin) (txin : CTxIn) : List Bytes :=
  let prevSpk := (prevouts txin.prevout).out.scriptPubKey
  prevSpk :: (if Script.isPayToScriptHash prevSpk then (redeemScript txin.scriptSig).toList else [])

/-- Some input spends, bare or in a script hash, a script of the given kind. -/
def SpendsProgram (prevouts : COutPoint → Coin) (tx : CTransaction) (kind : Bytes → Bool) : Prop :=
  ∃ txin ∈ tx.vin, ∃ script ∈ spentScripts prevouts txin, kind script = true

instance (prevouts : COutPoint → Coin) (tx : CTransaction) (kind : Bytes → Bool) :
    Decidable (SpendsProgram prevouts tx kind) :=
  inferInstanceAs (Decidable (∃ txin ∈ tx.vin, ∃ script ∈ spentScripts prevouts txin, kind script =
    true))

omit [Crypto] in
/-- A witness program that the flags only let be spent with a witness. -/
def requiresWitness (flags : ScriptFlags) (script : Bytes) : Bool :=
  match isWitnessProgramForFlags flags script with
  | none => false
  | some (version, program) =>
    (version = 0 ∧ (program.length = witnessV0KeyhashSize ∨
      program.length = witnessV0ScripthashSize)) ∨
    (version = 1 ∧ flags.has .witnessV1512 = true ∧ program.length = witnessV1Scripthash512Size)

omit [Crypto] in
lemma isWitnessProgram_payToScriptHash {script : Bytes} (hp2sh : isPayToScriptHash script) :
    isWitnessProgram script = none := by
  cases script with
  | nil => rfl
  | cons version rest =>
    simp only [isPayToScriptHash, Bool.and_eq_true, decide_eq_true_eq] at hp2sh
    have hversion : version = opHash160 := Option.some.inj hp2sh.1.1.2
    subst hversion
    cases rest with
    | nil => rfl
    | cons size program =>
      have hopcode : opHash160 ≠ op0 ∧ (opHash160 < op1 ∨ opHash160 > op16) := by decide
      rw [isWitnessProgram, if_pos hopcode, ite_self]

omit [Crypto] in
lemma isVersionZeroProgram_of_none {script : Bytes} (hscript : isWitnessProgram script = none) :
    isVersionZeroProgram script = false := by
  rw [isVersionZeroProgram, hscript]

lemma inputSpendsNonAnchor_iff (prevouts : COutPoint → Coin) (txin : CTxIn) :
    inputSpendsNonAnchor prevouts txin ↔
      ∃ script ∈ spentScripts prevouts txin, isVersionZeroProgram script := by
  unfold inputSpendsNonAnchor spentScripts
  dsimp only
  generalize (prevouts txin.prevout).out.scriptPubKey = prevSpk
  by_cases hp2sh : isPayToScriptHash prevSpk = true
  · have hbare := isWitnessProgram_payToScriptHash hp2sh
    have hzero := isVersionZeroProgram_of_none hbare
    rw [hbare, if_pos hp2sh, if_pos hp2sh]
    cases redeemScript txin.scriptSig with
    | none => simp [hzero]
    | some redeemScript => simp [hzero]
  · rw [if_neg hp2sh, if_neg hp2sh]
    cases hbare : isWitnessProgram prevSpk with
    | none => simp [isVersionZeroProgram_of_none hbare]
    | some versionProgram => simp

lemma spendsNonAnchorWitnessProg_iff {tx : CTransaction} (hcoinbase : tx.isCoinBase = false)
    (prevouts : COutPoint → Coin) :
    spendsNonAnchorWitnessProg tx prevouts ↔ SpendsProgram prevouts tx isVersionZeroProgram := by
  rw [spendsNonAnchorWitnessProg, hcoinbase, if_neg nofun, List.any_eq_true]
  exact exists_congr fun txin => and_congr_right fun _ => inputSpendsNonAnchor_iff prevouts txin

/-- The height of the block after the tip. -/
def nextHeight (tip : Option CBlockIndex) : Int :=
  match tip with
  | some tip => tip.nHeight + 1
  | none => 0

/-- A failed script check of a transaction that spends a witness program without any witness says
so; the reason and the debug message stay. -/
def classifyStripped (tx : CTransaction) (prevouts : COutPoint → Coin) :
    Failure TxValidationResult → Failure TxValidationResult
  | .invalid state =>
    if !tx.hasWitness && spendsNonAnchorWitnessProg tx prevouts then
      .invalid ⟨.witnessStripped, state.rejectReason, state.debugMessage⟩
    else .invalid state
  | failure => failure

variable [TransactionChecker]

def policyScriptChecks (params : Params) (tip : Option CBlockIndex) (tx : CTransaction)
    (view : COutPoint → Coin) (validationCache : ValidationCache) :
    Except (Failure TxValidationResult) ValidationCache :=
  match checkInputScripts tx view (policyScriptFlags params (nextHeight tip)) false false
      validationCache with
  | .ok (_, validationCache) => .ok validationCache
  | .error failure => .error (classifyStripped tx view failure)

omit [Crypto] [TransactionChecker] in
lemma scriptsInvalid_policy (params : Params) (height : Int) (result : ScriptError × String) :
    (scriptsInvalid (policyScriptFlags params height) result).result = .notStandard := by
  have hminimaldata : .minimaldata ∈
      (policyScriptFlags params height).flags ∩ standardNotMandatoryVerifyFlags :=
    Finset.mem_inter.2 ⟨Finset.mem_union_left _ (by decide), by decide⟩
  rw [scriptsInvalid, if_pos (Finset.ne_empty_of_mem hminimaldata)]

/-- What a failure of the policy checks is called: a transaction without witness is stripped exactly
when it spends a program of version 0. -/
theorem policyScriptChecks_result {params : Params} {tip : Option CBlockIndex} {tx : CTransaction}
    {view : COutPoint → Coin} {validationCache : ValidationCache} {state : TxInvalid}
    (hfail : policyScriptChecks params tip tx view validationCache = .error (.invalid state)) :
    (tx.hasWitness = false ∧ SpendsProgram view tx isVersionZeroProgram ∧
        state.result = .witnessStripped) ∨
      (¬(tx.hasWitness = false ∧ SpendsProgram view tx isVersionZeroProgram) ∧
        state.result = .notStandard) := by
  unfold policyScriptChecks at hfail
  split at hfail
  · cases hfail
  case h_2 failure hscripts =>
    have hclassify := Except.error.inj hfail
    unfold classifyStripped at hclassify
    split at hclassify
    case h_1 inner =>
      obtain ⟨hcoinbase, result, rfl⟩ := checkInputScripts_invalid hscripts
      have hprogram := spendsNonAnchorWitnessProg_iff hcoinbase view
      split at hclassify
      case isTrue hstripped =>
        rw [Bool.and_eq_true, Bool.not_eq_true', hprogram] at hstripped
        cases hclassify
        exact .inl ⟨hstripped.1, hstripped.2, rfl⟩
      case isFalse hother =>
        rw [Bool.and_eq_true, Bool.not_eq_true', hprogram] at hother
        cases hclassify
        exact .inr ⟨hother, scriptsInvalid_policy params _ result⟩
    case h_2 hother => exact absurd hclassify (hother state)

end Tidecoin
