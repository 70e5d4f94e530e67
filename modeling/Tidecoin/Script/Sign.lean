import Tidecoin.Script.SignatureHash
import Tidecoin.Script.Descriptor

/-!
Signing: `script/sign.cpp`. `produceSignature` solves a script with the signatures that are known
and those the creator can make, and then runs the interpreter on what it found. Whatever the
provider, the creator and the solver for miniscripts do, a solution it calls complete passes the
interpreter.

The signing algorithms and the satisfaction of a miniscript are parameters.
-/

namespace Tidecoin

open Lib Script

inductive PSBTError where
  | utxoMismatch
  | missingInputs
  | missingNonWitnessUtxo
  | sighashMismatch
  | sighashUnsupported
  | singleWithoutOutput
  | missingAmount
  | missingSpentAmounts
  | pqhdOriginMismatch
  | externalSignerNotFound
  | externalSignerFailed
  | unsupported
  | incomplete
  | ok
deriving DecidableEq, Repr

def isSupportedSighash (type : BitVec 32) : Bool :=
  type = 1 || type = 2 || type = 3 || type = 0x81 || type = 0x82 || type = 0x83

def singleWithoutOutput (type : BitVec 32) (input outputs : Nat) : Bool :=
  hashSingle type && input ≥ outputs

/-- `SigningProvider`, apart from the seeds. -/
structure SigningProvider where
  getCScript : Uint160 → Option Bytes
  getPubKey : Uint160 → Option CPubKey
  getKey : Uint160 → Option CKey

namespace SigningProvider

/-- `DUMMY_SIGNING_PROVIDER`. -/
def dummy : SigningProvider := ⟨fun _ => none, fun _ => none, fun _ => none⟩

/-- `HidingSigningProvider(provider, hide_secret)`. -/
def hidingSigningProvider (provider : SigningProvider) (hideSecret : Bool) : SigningProvider where
  getCScript := provider.getCScript
  getPubKey := provider.getPubKey
  getKey address := if hideSecret then none else provider.getKey address

end SigningProvider

/-- The signing algorithms: `CKey::Sign` and `CKey::Sign512`. -/
class PqSign where
  sign : CKey → (hash : Uint256) → (legacyMode : Bool) → Option Bytes
  sign512 : CKey → (hash : Uint512) → (legacyMode : Bool) → Option Bytes

/-- What a creator remembers of the calls made to it. -/
structure CreatorState where
  error : PSBTError
  signed : Bool
deriving DecidableEq, Repr

/-- `BaseSignatureCreator`. -/
structure SignatureCreator where
  checker : SignatureChecker
  createSig : SigningProvider → (keyid : Uint160) → (scriptCode : Bytes) → SigVersion →
    CreatorState → Option Bytes × CreatorState

/-- `MutableTransactionSignatureCreator`: its checker holds the transaction, the input, the amount,
the precomputed data and the verification mode. -/
structure TransactionSignatureCreator where
  checker : TransactionSignatureChecker
  nHashType : BitVec 32
  declaredSighash : Option (BitVec 32)
  existingSignaturesMatch : Bool
  amountKnown : Bool
  allAmountsKnown : Bool

namespace TransactionSignatureCreator

variable [Crypto] [PqVerify] [PqSign]

omit [Crypto] [PqVerify] [PqSign] in
/-- The constructor. -/
def new (checker : TransactionSignatureChecker) (hashType : BitVec 32) :
    TransactionSignatureCreator :=
  ⟨checker, hashType, none, true, true, true⟩

variable (creator : TransactionSignatureCreator)

omit [Crypto] [PqVerify] [PqSign] in
def setPSBTConstraints (declared : Option (BitVec 32)) (existingMatch : Bool) :
    TransactionSignatureCreator :=
  { creator with declaredSighash := declared, existingSignaturesMatch := existingMatch }

omit [Crypto] [PqVerify] [PqSign] in
/-- The requests a creator refuses, with the error it remembers. -/
def refusal (sigversion : SigVersion) : Option PSBTError :=
  if singleWithoutOutput creator.nHashType creator.checker.nIn creator.checker.txTo.vout.length then
    some .singleWithoutOutput
  else if !isSupportedSighash creator.nHashType then some .sighashUnsupported
  else if (creator.declaredSighash.any fun declared => declared ≠ creator.nHashType) ||
      !creator.existingSignaturesMatch then
    some .sighashMismatch
  else if sigversion ≠ .base ∧ creator.amountKnown = false then some .missingAmount
  else if sigversion = .witnessV1512 ∧ anyoneCanPay creator.nHashType = false ∧
      creator.allAmountsKnown = false then
    some .missingSpentAmounts
  else none

/-- The signature of the input under the key, without its hash type. -/
def signWith (key : CKey) (scriptCode : Bytes) (sigversion : SigVersion) : Option Bytes :=
  let checker := creator.checker
  if sigversion ≠ .base ∧ moneyRange checker.amount.toInt = false then none
  else if creator.nHashType = 0 then none
  else if sigversion = .witnessV1512 then do
    let hash ← signatureHash512 scriptCode checker.txTo checker.nIn creator.nHashType checker.amount
      checker.txdata
    PqSign.sign512 key hash false
  else PqSign.sign key (signatureHash scriptCode checker.txTo checker.nIn creator.nHashType
    checker.amount checker.txdata sigversion) checker.allowLegacy

def createSig (provider : SigningProvider)
    (address : Uint160) (scriptCode : Bytes) (sigversion : SigVersion) (state : CreatorState) :
    Option Bytes × CreatorState :=
  match provider.getKey address with
  | none => (none, state)
  | some key =>
    match creator.refusal sigversion with
    | some error => (none, { state with error := error })
    | none =>
      match creator.signWith key scriptCode sigversion with
      | none => (none, state)
      | some vchSig =>
        (some (vchSig ++ [UInt8.ofNat creator.nHashType.toNat]), { state with signed := true })

/-- The creator as `ProduceSignature` sees it. -/
def toCreator : SignatureCreator := ⟨creator.checker.toChecker, creator.createSig⟩

end TransactionSignatureCreator

/-- `sig_bytes_max` and `sig_bytes_fixed` of the scheme. -/
def SchemeId.sigBytes : SchemeId → (use_max : Bool) → Nat
  | .falcon512, use_max => if use_max then 752 else 666
  | .falcon1024, use_max => if use_max then 1462 else 1280
  | .mldsa44, _ => 2420
  | .mldsa65, _ => 3309
  | .mldsa87, _ => 4627

/-- `DummySignatureCreator`: zeros of the length a signature can have, and `SIGHASH_ALL`. For a key
that is not known the length is the largest one. -/
def SignatureCreator.dummy (use_max : Bool) : SignatureCreator where
  checker := ⟨fun sig _ _ _ => sig ≠ [], fun _ => true, fun _ => true⟩
  createSig provider keyid _ _ state :=
    let scheme := provider.getPubKey keyid >>= fun pubkey => pubkey.vch.head? >>= schemeFromPrefix
    let sigBytes := match scheme with
      | some scheme => scheme.sigBytes use_max
      | none => SchemeId.mldsa87.sigBytes true
    (some (List.replicate sigBytes 0 ++ [1]), state)

structure SignatureData where
  complete : Bool
  witness : Bool
  scriptSig : Bytes
  redeemScript : Bytes
  witnessScript : Bytes
  scriptWitness : List Bytes
  signatures : AList fun _ : Uint160 => CPubKey × Bytes
  missingPubkeys : List Uint160
  missingSigs : List Uint160
  missingRedeemScript : Uint160
  missingWitnessScript : Bytes
  sha256Preimages : AList fun _ : Bytes => Bytes
  hash256Preimages : AList fun _ : Bytes => Bytes
  ripemd160Preimages : AList fun _ : Bytes => Bytes
  hash160Preimages : AList fun _ : Bytes => Bytes

/-- `SignatureData()`. -/
def SignatureData.empty : SignatureData :=
  ⟨false, false, [], [], [], [], ∅, [], [], 0, [], ∅, ∅, ∅, ∅⟩

/-- What signing changes: the data of the input and the creator. -/
structure SigningState where
  sigdata : SignatureData
  creator : CreatorState

abbrev Signing := StateM SigningState

/-- An update of the signature data. -/
def modifyData (change : SignatureData → SignatureData) : Signing Unit :=
  modify fun state => { state with sigdata := change state.sigdata }

/-- The satisfaction of a witness script that has no other template: `miniscript::FromScript` and
`Satisfy` for the given signature version. -/
class MiniscriptSatisfier where
  satisfy : SigningProvider → SignatureCreator → (witnessscript : Bytes) → SigVersion →
    Signing (Bool × List Bytes)

variable [Crypto] (provider : SigningProvider) (creator : SignatureCreator)

def getCScript (scriptid : Uint160) : Signing (Option Bytes) := do
  let sigdata := (← get).sigdata
  match provider.getCScript scriptid with
  | some script => return some script
  | none =>
    if scriptID sigdata.redeemScript = scriptid then return some sigdata.redeemScript
    else if scriptID sigdata.witnessScript = scriptid then return some sigdata.witnessScript
    else return none

def getPubKey (address : Uint160) : Signing (Option CPubKey) := do
  match (← get).sigdata.signatures.lookup address with
  | some pair => return some pair.1
  | none => return provider.getPubKey address

def createSig (pubkey : CPubKey) (scriptcode : Bytes) (sigversion : SigVersion) :
    Signing (Option Bytes) := do
  let state ← get
  match state.sigdata.signatures.lookup pubkey.getID with
  | some pair => return some pair.2
  | none =>
    let (sig, remembered) :=
      creator.createSig provider pubkey.getID scriptcode sigversion state.creator
    set { state with creator := remembered }
    match sig with
    | some sig =>
      modifyData fun sigdata =>
        { sigdata with signatures := sigdata.signatures.insert pubkey.getID (pubkey, sig) }
      return some sig
    | none =>
      if remembered.error = .ok then
        modifyData fun sigdata =>
          { sigdata with missingSigs := sigdata.missingSigs ++ [pubkey.getID] }
      return none

/-- The keys of a multisig script in turn. All are asked for a signature, `ret` takes as many as are
required. -/
def signMultisig (scriptPubKey : Bytes) (sigversion : SigVersion) (required : Nat) :
    (keys ret : List Bytes) → Signing (List Bytes)
  | [], ret => return ret
  | key :: keys, ret => do
      match ← createSig provider creator (CPubKey.set key) scriptPubKey sigversion with
      | some sig =>
        signMultisig scriptPubKey sigversion required keys
          (if ret.length < required + 1 then ret ++ [sig] else ret)
      | none => signMultisig scriptPubKey sigversion required keys ret

/-- `SignStep`: whether the script is solved, the solution and the template of the script. -/
def signStep (scriptPubKey : Bytes) (sigversion : SigVersion) :
    Signing (Bool × List Bytes × TxoutType) :=
  match solver scriptPubKey with
  | (.pubkey, [key]) => do
      match ← createSig provider creator (CPubKey.set key) scriptPubKey sigversion with
      | none => return (false, [], .pubkey)
      | some sig => return (true, [sig], .pubkey)
  | (.pubkeyhash, [hash]) => do
      let keyID := Uint160.ofBytes hash
      match ← getPubKey provider keyID with
      | none =>
        modifyData fun sigdata =>
          { sigdata with missingPubkeys := sigdata.missingPubkeys ++ [keyID] }
        return (false, [], .pubkeyhash)
      | some pubkey =>
        match ← createSig provider creator pubkey scriptPubKey sigversion with
        | none => return (false, [], .pubkeyhash)
        | some sig => return (true, [sig, pubkey.vch], .pubkeyhash)
  | (.scripthash, [hash]) => do
      let h160 := Uint160.ofBytes hash
      match ← getCScript provider h160 with
      | some script => return (true, [script], .scripthash)
      | none =>
        modifyData fun sigdata => { sigdata with missingRedeemScript := h160 }
        return (false, [], .scripthash)
  | (.multisig, [count] :: rest) => do
      let required := count.toNat
      let ret ← signMultisig provider creator scriptPubKey sigversion required rest.dropLast [[]]
      -- The index of the padding loop is added to a size that grows with it.
      let padding := List.replicate ((required + 1 - ret.length + 1) / 2) []
      return (ret.length = required + 1, ret ++ padding, .multisig)
  | (.witnessV0Keyhash, [program]) => return (true, [program], .witnessV0Keyhash)
  | (.witnessV0Scripthash, [program]) => do
      match ← getCScript provider (Uint160.ofBytes (Crypto.ripemd160 program)) with
      | some script => return (true, [script], .witnessV0Scripthash)
      | none =>
        modifyData fun sigdata => { sigdata with missingWitnessScript := program }
        return (false, [], .witnessV0Scripthash)
  | (.witnessV1Scripthash512, [program]) => do
      let isMatch := fun script => decide ((witnessV1ScriptHash512 script).toBytes = program)
      let known := (provider.getCScript (Uint160.ofBytes (Crypto.ripemd160 program))).filter isMatch
      let script := known.getD (← get).sigdata.witnessScript
      if isMatch script then return (true, [script], .witnessV1Scripthash512)
      else
        modifyData fun sigdata => { sigdata with missingWitnessScript := program }
        return (false, [], .witnessV1Scripthash512)
  | (whichType, _) => return (false, [], whichType)

omit [Crypto] in
def pushAll (values : List Bytes) : Bytes :=
  values.flatMap fun value =>
    match value with
    | [] => [op0]
    | [byte] =>
      if byte ≥ 1 ∧ byte ≤ 16 then [op1 + byte - 1]
      else if byte = 0x81 then [0x4f]
      else pushData value
    | _ => pushData value

variable [MiniscriptSatisfier]

omit [Crypto] [MiniscriptSatisfier] in
/-- The witness of a program, which leaves nothing for the scriptSig. -/
def setWitness (stack : List Bytes) : Signing Unit :=
  modifyData fun sigdata => { sigdata with scriptWitness := stack, witness := true }

/-- A witness script: its template first, then miniscript when the template gave nothing. The
excluded templates cannot be nested. -/
def solveWitnessScript (witnessscript : Bytes) (sigversion : SigVersion)
    (excluded : List TxoutType) : Signing Bool := do
  modifyData fun sigdata => { sigdata with witnessScript := witnessscript }
  let (signed, result, subType) ← signStep provider creator witnessscript sigversion
  let solved := signed && subType ∉ excluded
  let (solved, result) ←
    if !solved && result.isEmpty then
      MiniscriptSatisfier.satisfy provider creator witnessscript sigversion
    else pure (solved, result)
  setWitness (result ++ [witnessscript])
  return solved

/-- The witness programs of `ProduceSignature`: whether they are solved, and what is left for the
scriptSig. -/
def solveWitnessProgram (solved : Bool) (result : List Bytes) (whichType : TxoutType) :
    Signing (Bool × List Bytes) :=
  match solved, whichType, result with
  | true, .witnessV0Keyhash, [program] => do
      let (solved, stack, _) ← signStep provider creator (keyHashScript program) .witnessV0
      setWitness stack
      return (solved, [])
  | true, .witnessV0Scripthash, [witnessscript] => do
      let solved ← solveWitnessScript provider creator witnessscript .witnessV0
        [.scripthash, .witnessV0Scripthash, .witnessV0Keyhash]
      return (solved, [])
  | true, .witnessV1Scripthash512, [witnessscript] => do
      let solved ← solveWitnessScript provider creator witnessscript .witnessV1512
        [.scripthash, .witnessV0Scripthash, .witnessV0Keyhash, .witnessV1Scripthash512]
      return (solved, [])
  | _, _, _ => return (solved, result)

/-- The redeem script of a script hash and its solution. -/
def solveRedeemScript (subscript : Bytes) : Signing (Bool × List Bytes × TxoutType) := do
  modifyData fun sigdata => { sigdata with redeemScript := subscript }
  let (signed, result, whichType) ← signStep provider creator subscript .base
  return (signed && whichType ≠ .scripthash, result, whichType)

omit [MiniscriptSatisfier] in
/-- The end of `ProduceSignature`: the scriptSig is written and the solution is tested. -/
def testSolution (fromPubKey : Bytes) (scriptVerifyFlags : ScriptFlags) (solved : Bool)
    (values : List Bytes) : Signing Bool := do
  modifyData fun sigdata =>
    { sigdata with
      scriptWitness := if sigdata.witness then sigdata.scriptWitness else []
      scriptSig := pushAll values }
  let sigdata := (← get).sigdata
  let complete := solved && (verifyScript scriptVerifyFlags creator.checker sigdata.scriptSig
    fromPubKey sigdata.scriptWitness).isOk
  modifyData fun sigdata => { sigdata with complete }
  return complete

/-- The solution of a script, before it is tested: the values the scriptSig pushes. -/
def solveScript (fromPubKey : Bytes) : Signing (Bool × List Bytes) := do
  let (solved, result, whichType) ← signStep provider creator fromPubKey .base
  match solved, whichType, result with
  | true, .scripthash, [subscript] =>
    let (solved, result, whichType) ← solveRedeemScript provider creator subscript
    let (solved, result) ← solveWitnessProgram provider creator solved result whichType
    return (solved, result ++ [subscript])
  | _, _, _ => solveWitnessProgram provider creator solved result whichType

def produceSignature (fromPubKey : Bytes) (scriptVerifyFlags : ScriptFlags) : Signing Bool := do
  if (← get).sigdata.complete then return true
  let (solved, values) ← solveScript provider creator fromPubKey
  testSolution creator fromPubKey scriptVerifyFlags solved values

/-- The data holds a solution of the script that the interpreter accepts. -/
structure SignatureData.Verified (flags : ScriptFlags) (checker : SignatureChecker)
    (fromPubKey : Bytes) (sigdata : SignatureData) : Prop where
  complete : sigdata.complete = true
  valid : verifyScript flags checker sigdata.scriptSig fromPubKey sigdata.scriptWitness = .ok ()

variable {provider creator} {fromPubKey : Bytes} {scriptVerifyFlags : ScriptFlags}

omit [MiniscriptSatisfier] in
lemma testSolution_verified {solved : Bool} {values : List Bytes} {state : SigningState}
    (hcomplete : (testSolution creator fromPubKey scriptVerifyFlags solved values state).1) :
    (testSolution creator fromPubKey scriptVerifyFlags solved values state).2.sigdata.Verified
      scriptVerifyFlags creator.checker fromPubKey := by
  refine ⟨hcomplete, ?_⟩
  have hvalid := (Bool.and_eq_true_iff.1 hcomplete).2
  exact isOk_iff.1 hvalid

/-- A solution that is found passes the interpreter, whatever the provider and the creator gave. -/
theorem produceSignature_verified {state : SigningState} (hopen : state.sigdata.complete = false)
    (hcomplete : (produceSignature provider creator fromPubKey scriptVerifyFlags state).1) :
    (produceSignature provider creator fromPubKey scriptVerifyFlags
      state).2.sigdata.Verified scriptVerifyFlags creator.checker fromPubKey := by
  have hrun : produceSignature provider creator fromPubKey scriptVerifyFlags state =
      (solveScript provider creator fromPubKey >>= fun found =>
        testSolution creator fromPubKey scriptVerifyFlags found.1 found.2) state := by
    change (if state.sigdata.complete = true then (pure true : Signing Bool) else _) state = _
    rw [hopen]
    rfl
  rw [hrun] at hcomplete ⊢
  exact testSolution_verified hcomplete

end Tidecoin
