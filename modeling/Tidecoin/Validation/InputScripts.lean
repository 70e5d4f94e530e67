import Tidecoin.Script.SigCache
import Tidecoin.Validation.ScriptChecks
import Tidecoin.Validation.TxVerify

/-!
The check of all inputs of a transaction: `CheckInputScripts` of `validation.cpp` with the cache of
script executions. The coins are read through `inputs`, the answers of `AccessCoin`. The signature
checker of an input is a parameter; the cache in front of it changes no answer.
-/

namespace Tidecoin

open Lib

def scriptErrorString : ScriptError → String
  | .evalFalse => "Script evaluated without error but finished with a false/empty top stack element"
  | .verify => "Script failed an OP_VERIFY operation"
  | .equalVerify => "Script failed an OP_EQUALVERIFY operation"
  | .checkMultisigVerify => "Script failed an OP_CHECKMULTISIGVERIFY operation"
  | .checkSigVerify => "Script failed an OP_CHECKSIGVERIFY operation"
  | .numEqualVerify => "Script failed an OP_NUMEQUALVERIFY operation"
  | .scriptSize => "Script is too big"
  | .pushSize => "Push value size limit exceeded"
  | .opCount => "Operation limit exceeded"
  | .stackSize => "Stack size limit exceeded"
  | .sigCount => "Signature count negative or greater than pubkey count"
  | .pubkeyCount => "Pubkey count negative or limit exceeded"
  | .badOpcode => "Opcode missing or not understood"
  | .disabledOpcode => "Attempted to use a disabled opcode"
  | .invalidStackOperation => "Operation not valid with the current stack size"
  | .invalidAltstackOperation => "Operation not valid with the current altstack size"
  | .opReturn => "OP_RETURN was encountered"
  | .unbalancedConditional => "Invalid OP_IF construction"
  | .negativeLocktime => "Negative locktime"
  | .unsatisfiedLocktime => "Locktime requirement not satisfied"
  | .sigHashtype => "Signature hash type missing or not understood"
  | .minimalData => "Data push larger than necessary"
  | .sigPushOnly => "Only push operators allowed in signatures"
  | .sigNullDummy => "Dummy CHECKMULTISIG argument must be zero"
  | .minimalIf => "OP_IF/NOTIF argument must be minimal"
  | .sigNullFail => "Signature must be zero for failed CHECK(MULTI)SIG operation"
  | .discourageUpgradableNops => "NOPx reserved for soft-fork upgrades"
  | .discourageUpgradableWitnessProgram => "Witness version reserved for soft-fork upgrades"
  | .cleanStack => "Stack size must be exactly one after execution"
  | .witnessProgramWrongLength => "Witness program has incorrect length"
  | .witnessProgramWitnessEmpty => "Witness program was passed an empty witness"
  | .witnessProgramMismatch => "Witness program hash mismatch"
  | .witnessMalleated => "Witness requires empty scriptSig"
  | .witnessMalleatedP2sh => "Witness requires only-redeemscript scriptSig"
  | .witnessUnexpected => "Witness provided for non-witness script"
  | .opCodeseparator => "Using OP_CODESEPARATOR in non-witness script"
  | .sigFindAndDelete => "Signature is found in scriptCode"
  | .unknownError => "unknown error"

/-- The number of the bit of a flag. -/
def ScriptFlag.bit : ScriptFlag → Nat
  | .p2sh => 0
  | .nulldummy => 1
  | .sigpushonly => 2
  | .minimaldata => 3
  | .discourageUpgradableNops => 4
  | .cleanstack => 5
  | .checklocktimeverify => 6
  | .checksequenceverify => 7
  | .witness => 8
  | .discourageUpgradableWitnessProgram => 9
  | .minimalif => 10
  | .nullfail => 11
  | .constScriptcode => 12
  | .pqStrict => 13
  | .witnessV1512 => 14
  | .sha512 => 15
  | .definedHashtype => 16

/-- The flags as an `unsigned int`. -/
def ScriptFlags.word (flags : ScriptFlags) : Nat := ∑ flag ∈ flags.flags, 2 ^ flag.bit

def standardNotMandatoryVerifyFlags : Finset ScriptFlag :=
  standardScriptVerifyFlags \ mandatoryScriptVerifyFlags

/-- The signature checker of an input: it reads the transaction and the outputs it spends. -/
class TransactionChecker where
  checker : (tx : CTransaction) → (spentOutputs : List CTxOut) → (nIn : Nat) →
    (allowLegacy : Bool) → SignatureChecker

/-- The checkers that accept no signature and no lock time. -/
@[reducible] def TransactionChecker.rejecting : TransactionChecker :=
  ⟨fun _ _ _ _ => ⟨fun _ _ _ _ => false, fun _ => false, fun _ => false⟩⟩

/-- A `CScriptCheck` of an input, with the text it reports when it fails. -/
structure InputCheck where
  check : CScriptCheck
  debugStr : String

/-- `CScriptCheck::operator()`, with its report. -/
def InputCheck.run [Crypto] (input : InputCheck) (nFlags : ScriptFlags) :
    Except (ScriptError × String) Unit :=
  match input.check.run nFlags with
  | .ok () => .ok ()
  | .error error => .error (error, input.debugStr)

/-- `ValidationCache`, without the signature cache. -/
structure ValidationCache where
  nonce : Uint256
  scriptExecutionCache : CuckooCache Uint256

/-- The outputs the inputs spend; a spent coin is an assertion failure. -/
def spentOutputs (inputs : COutPoint → Coin) :
    List CTxIn → Except (Failure TxValidationResult) (List CTxOut)
  | [] => .ok []
  | txin :: vin => do
      require ((inputs txin.prevout).isSpent = false) .assertion
      let spentOutputs ← spentOutputs inputs vin
      return (inputs txin.prevout).out :: spentOutputs

/-- What a failed check makes of the state: policy flags give a policy failure. -/
def scriptsInvalid (flags : ScriptFlags) (result : ScriptError × String) : TxInvalid :=
  if flags.flags ∩ standardNotMandatoryVerifyFlags ≠ ∅ then
    ⟨.notStandard, "mempool-script-verify-flag-failed (" ++ scriptErrorString result.1 ++ ")",
      result.2⟩
  else
    ⟨.consensus, "block-script-verify-flag-failed (" ++ scriptErrorString result.1 ++ ")",
      result.2⟩

lemma spentOutputs_eq (inputs : COutPoint → Coin) (vin : List CTxIn) : spentOutputs inputs vin =
      if ∀ txin ∈ vin, (inputs txin.prevout).isSpent = false then
        .ok (vin.map fun txin => (inputs txin.prevout).out) else .error .assertion := by
  induction vin with
  | nil => rfl
  | cons txin vin ih =>
    rw [spentOutputs, ih]
    simp only [List.forall_mem_cons]
    by_cases hunspent : (inputs txin.prevout).isSpent = false
    · rw [require_pos hunspent]
      by_cases hrest : ∀ other ∈ vin, (inputs other.prevout).isSpent = false
      · rw [if_pos hrest, if_pos ⟨hunspent, hrest⟩]
        rfl
      · rw [if_neg hrest, if_neg fun hall => hrest hall.2]
        rfl
    · have hspent : ¬((inputs txin.prevout).isSpent = false ∧
          ∀ other ∈ vin, (inputs other.prevout).isSpent = false) := fun hall => hunspent hall.1
      rw [require_neg hunspent, if_neg hspent]
      rfl

variable [Crypto]

/-- `CheckInputScripts`, inline: the checks up to the first one that fails. -/
def runChecks (flags : ScriptFlags) : List InputCheck → Except (Failure TxValidationResult) Unit
  | [] => .ok ()
  | check :: checks =>
    match check.run flags with
    | .ok () => runChecks flags checks
    | .error result => .error (.invalid (scriptsInvalid flags result))

lemma runChecks_invalid {flags : ScriptFlags} {checks : List InputCheck}
    {state : Invalid TxValidationResult}
    (hfail : runChecks flags checks = .error (.invalid state)) :
    ∃ result, state = scriptsInvalid flags result := by
  induction checks with
  | nil => cases hfail
  | cons check checks ih =>
    rw [runChecks] at hfail
    split at hfail
    · exact ih hfail
    case h_2 result _ =>
      cases hfail
      exact ⟨result, rfl⟩

namespace ValidationCache

section

variable (cache : ValidationCache) (tx : CTransaction) (flags : ScriptFlags)

/-- The bytes hashed for the executions of a transaction under some flags. -/
def entryBytes : Bytes :=
  cache.nonce.toBytes ++ cache.nonce.toBytes ++ tx.getWitnessHash.toBytes ++ natToLE 4 flags.word

def computeEntry : Uint256 := Uint256.ofBytes (Crypto.sha256 (cache.entryBytes tx flags))

end

omit [Crypto] in
/-- `contains` of the script execution cache. -/
def contains (cache : ValidationCache) (entry : Uint256) (erase : Bool) : Bool × ValidationCache :=
  let (found, set) := cache.scriptExecutionCache.contains signatureCacheHasher entry erase
  (found, { cache with scriptExecutionCache := set })

omit [Crypto] in
/-- `insert` of the script execution cache. -/
def insert (cache : ValidationCache) (entry : Uint256) : ValidationCache :=
  { cache with
    scriptExecutionCache := cache.scriptExecutionCache.insert signatureCacheHasher entry }

end ValidationCache

variable [TransactionChecker]

section

variable (tx : CTransaction) (spentOutputs : List CTxOut)

/-- The check of input `nIn`. -/
def inputCheck (nIn : Nat) (input : CTxIn × CTxOut) : InputCheck where
  check :=
    { scriptSig := input.1.scriptSig
      scriptPubKey := input.2.scriptPubKey
      witness := input.1.scriptWitness
      checker := TransactionChecker.checker tx spentOutputs nIn }
  debugStr := "input " ++ toString nIn ++ " of " ++ tx.getHash.toHex ++ " (wtxid " ++
    tx.getWitnessHash.toHex ++ "), spending " ++ input.1.prevout.hash.toHex ++ ":" ++
    toString input.1.prevout.n.toNat

/-- The checks of the inputs in order. -/
def inputChecks : List InputCheck := (tx.vin.zip spentOutputs).mapIdx (inputCheck tx spentOutputs)

end

/-- `CheckInputScripts`. With `pvChecks` the checks are handed back and not run. A failure leaves
the cache as it was. -/
def checkInputScripts (tx : CTransaction) (inputs : COutPoint → Coin) (flags : ScriptFlags)
    (cacheFullScriptStore pvChecks : Bool) (validationCache : ValidationCache) :
    Except (Failure TxValidationResult) (List InputCheck × ValidationCache) :=
  if tx.isCoinBase then .ok ([], validationCache)
  else
    let hashCacheEntry := validationCache.computeEntry tx flags
    let (found, validationCache) := validationCache.contains hashCacheEntry (!cacheFullScriptStore)
    if found then .ok ([], validationCache)
    else do
      let spentOutputs ← spentOutputs inputs tx.vin
      if pvChecks then return (inputChecks tx spentOutputs, validationCache)
      else do
        runChecks flags (inputChecks tx spentOutputs)
        return ([], if cacheFullScriptStore then validationCache.insert hashCacheEntry
          else validationCache)

lemma checkInputScripts_invalid {tx : CTransaction} {inputs : COutPoint → Coin}
    {flags : ScriptFlags} {cacheFullScriptStore pvChecks : Bool}
    {validationCache : ValidationCache} {state : Invalid TxValidationResult}
    (hfail : checkInputScripts tx inputs flags cacheFullScriptStore pvChecks validationCache =
      .error (.invalid state)) : tx.isCoinBase = false ∧ ∃ result, state =
      scriptsInvalid flags result := by
  unfold checkInputScripts at hfail
  split at hfail
  · cases hfail
  case isFalse hcoinbase =>
    refine ⟨Bool.eq_false_iff.2 hcoinbase, ?_⟩
    dsimp only at hfail
    split at hfail
    · cases hfail
    · rw [spentOutputs_eq] at hfail
      split at hfail
      · dsimp only [bind, Except.bind, pure, Except.pure] at hfail
        split at hfail
        · cases hfail
        · split at hfail
          case h_1 failure hchecks =>
            cases hfail
            exact runChecks_invalid hchecks
          case h_2 => cases hfail
      · cases hfail

end Tidecoin
