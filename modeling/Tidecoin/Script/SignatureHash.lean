import Tidecoin.Script.Solver
import Tidecoin.Validation.Transaction

/-!
The hashes that signatures sign and the checker of an input's signatures: `SignatureHash`,
`SignatureHash512`, `PrecomputedTransactionData` and `GenericTransactionSignatureChecker` of
`script/interpreter.cpp`, with `MissingDataBehavior::FAIL` and without the cache of midstates.

A checker reads neither the scripts nor the witnesses of the inputs, so that it is the same for a
transaction before and after its inputs are filled in. It also does not depend on whether the
hashes were computed before, apart from the spent outputs of a witness v1 program.
-/

namespace Tidecoin

open Lib Script

def sighashAll : BitVec 32 := 1
def sighashNone : BitVec 32 := 2
def sighashSingle : BitVec 32 := 3
def sighashAnyonecanpay : BitVec 32 := 0x80

/-- `nHashType & SIGHASH_ANYONECANPAY`. -/
def anyoneCanPay (nHashType : BitVec 32) : Bool := nHashType &&& sighashAnyonecanpay ≠ 0

/-- `(nHashType & 0x1f) == SIGHASH_SINGLE`. -/
def hashSingle (nHashType : BitVec 32) : Bool := nHashType &&& 0x1f = sighashSingle

/-- `(nHashType & 0x1f) == SIGHASH_NONE`. -/
def hashNone (nHashType : BitVec 32) : Bool := nHashType &&& 0x1f = sighashNone

def serOutPoint (outpoint : COutPoint) : Bytes := outpoint.hash.toBytes ++ serUint32 outpoint.n

def serAmount (amount : BitVec 64) : Bytes := natToLE 8 amount.toNat

def serHashType (nHashType : BitVec 32) : Bytes := natToLE 4 nHashType.toNat

/-- Where `GetScriptOp` leaves its position when it cannot read the instruction. -/
def unreadRest : Bytes → Bytes
  | [] => []
  | opcode :: pc =>
    match pushSize opcode pc with
    | none => pc
    | some (_, pc) => pc

/-- The second loop of `SerializeScriptCode`: the script without its code separators. `itBegin` is
the script from the last separator on, `it` the script that is not read yet. -/
def scriptCodeLoop : (fuel : Nat) → (itBegin it : Bytes) → Bytes
  | 0, itBegin, it => itBegin.take (itBegin.length - it.length)
  | fuel + 1, itBegin, it =>
    match getScriptOp it with
    | none => itBegin.take (itBegin.length - (unreadRest it).length)
    | some op =>
      if op.opcode = opCodeseparator then
        itBegin.take (itBegin.length - op.rest.length - 1) ++ scriptCodeLoop fuel op.rest op.rest
      else scriptCodeLoop fuel itBegin op.rest

def serializeScriptCode (scriptCode : Bytes) : Bytes :=
  let nCodeSeparators := (scriptOps scriptCode).1.countP fun op => op.opcode = opCodeseparator
  writeCompactSize (scriptCode.length - nCodeSeparators) ++
    scriptCodeLoop (scriptCode.length + 1) scriptCode scriptCode

section

variable (txTo : CTransaction) (scriptCode : Bytes) (nIn : Fin txTo.vin.length)
  (nHashType : BitVec 32)

/-- `SerializeInput`, for an input whose index is not replaced. -/
def serializeInput (nInput : Fin txTo.vin.length) : Bytes :=
  serOutPoint txTo.vin[nInput].prevout ++
    (if nInput ≠ nIn then serBytes [] else serializeScriptCode scriptCode) ++
    (if nInput ≠ nIn ∧ (hashSingle nHashType = true ∨ hashNone nHashType = true) then natToLE 4 0
      else serUint32 txTo.vin[nInput].nSequence)

/-- `CTxOut()`. -/
def nullTxOut : CTxOut := ⟨-1, []⟩

/-- The inputs of `CTransactionSignatureSerializer::Serialize`. -/
def serializeInputs : Bytes :=
  serVector (serializeInput txTo scriptCode nIn nHashType)
    (if anyoneCanPay nHashType then [nIn] else List.finRange txTo.vin.length)

/-- The outputs of `CTransactionSignatureSerializer::Serialize`: for `SIGHASH_SINGLE` the one at the
index of the input, after as many null outputs as it takes. -/
def serializeOutputs : Bytes :=
  if hashNone nHashType then writeCompactSize 0
  else if hashSingle nHashType then
    writeCompactSize (nIn.val + 1) ++
      (List.replicate nIn.val nullTxOut).flatMap CTransaction.serTxOut ++
      txTo.vout[nIn.val]?.toList.flatMap CTransaction.serTxOut
  else serVector CTransaction.serTxOut txTo.vout

/-- `CTransactionSignatureSerializer::Serialize`. -/
def serializeForSignature : Bytes :=
  serUint32 txTo.version ++ serializeInputs txTo scriptCode nIn nHashType ++
    serializeOutputs txTo nIn nHashType ++ serUint32 txTo.nLockTime

end

/-- The bytes of all prevouts, of all sequence numbers and of all outputs of a transaction. -/
def prevoutsBytes (txTo : CTransaction) : Bytes :=
  txTo.vin.flatMap fun txin => serOutPoint txin.prevout
def sequencesBytes (txTo : CTransaction) : Bytes :=
  txTo.vin.flatMap fun txin => serUint32 txin.nSequence
def outputsBytes (txTo : CTransaction) : Bytes := txTo.vout.flatMap CTransaction.serTxOut

structure PrecomputedTransactionData where
  hashPrevouts : Uint256
  hashSequence : Uint256
  hashOutputs : Uint256
  bip143SegwitReady : Bool
  hashPrevouts512 : Uint512
  hashSequence512 : Uint512
  hashOutputs512 : Uint512
  hashSpentAmounts512 : Uint512
  hashSpentScripts512 : Uint512
  bip143Segwit512Ready : Bool
  spentOutputs : List CTxOut
  spentOutputsReady : Bool
deriving DecidableEq, Repr

section

variable [Crypto]

/-- `SHA512Writer::GetHash` over the written bytes. -/
def sha512Bytes (bytes : Bytes) : Uint512 := Uint512.ofBytes (Crypto.sha512 bytes)

/-- `PrecomputedTransactionData::Init`. The source asserts that there are no spent outputs or one
for each input. -/
def PrecomputedTransactionData.init (txTo : CTransaction) (spentOutputs : List CTxOut)
    (force : Bool) : PrecomputedTransactionData :=
  let ready := force || txTo.hasWitness
  let spentReady := !spentOutputs.isEmpty
  { hashPrevouts := if ready then hashBytes (prevoutsBytes txTo) else 0
    hashSequence := if ready then hashBytes (sequencesBytes txTo) else 0
    hashOutputs := if ready then hashBytes (outputsBytes txTo) else 0
    bip143SegwitReady := ready
    hashPrevouts512 := if ready then sha512Bytes (prevoutsBytes txTo) else 0
    hashSequence512 := if ready then sha512Bytes (sequencesBytes txTo) else 0
    hashOutputs512 := if ready then sha512Bytes (outputsBytes txTo) else 0
    hashSpentAmounts512 :=
      if ready && spentReady then
        sha512Bytes (spentOutputs.flatMap fun output => serAmount output.nValue)
      else 0
    hashSpentScripts512 :=
      if ready && spentReady then
        sha512Bytes (spentOutputs.flatMap fun output => serBytes output.scriptPubKey)
      else 0
    bip143Segwit512Ready := ready
    spentOutputs := spentOutputs
    spentOutputsReady := spentReady }

/-- A hash that is taken from the precomputed data where it is ready. -/
def precomputed {α : Type} (cache : Option PrecomputedTransactionData)
    (ready : PrecomputedTransactionData → Bool) (hash : PrecomputedTransactionData → α)
    (computed : α) : α :=
  match cache with
  | none => computed
  | some txdata => if ready txdata then hash txdata else computed

variable (scriptCode : Bytes) (txTo : CTransaction) (nIn : Fin txTo.vin.length)
  (nHashType : BitVec 32) (amount : BitVec 64) (cache : Option PrecomputedTransactionData)

/-- What `SignatureHash` writes for a witness v0 program, before the hash type. -/
def witnessV0Bytes : Bytes :=
  let ready := PrecomputedTransactionData.bip143SegwitReady
  let fewOutputs := hashSingle nHashType || hashNone nHashType
  let hashPrevouts :=
    if anyoneCanPay nHashType then 0
    else precomputed cache ready (·.hashPrevouts) (hashBytes (prevoutsBytes txTo))
  let hashSequence :=
    if anyoneCanPay nHashType || fewOutputs then 0
    else precomputed cache ready (·.hashSequence) (hashBytes (sequencesBytes txTo))
  let hashOutputs :=
    if !fewOutputs then precomputed cache ready (·.hashOutputs) (hashBytes (outputsBytes txTo))
    else if hashSingle nHashType then
      match txTo.vout[nIn.val]? with
      | some txout => hashBytes (CTransaction.serTxOut txout)
      | none => 0
    else 0
  serUint32 txTo.version ++ hashPrevouts.toBytes ++ hashSequence.toBytes ++
    serOutPoint txTo.vin[nIn].prevout ++ serBytes scriptCode ++ serAmount amount ++
    serUint32 txTo.vin[nIn].nSequence ++ hashOutputs.toBytes ++ serUint32 txTo.nLockTime

/-- `SignatureHash`. A `SIGHASH_SINGLE` without its output has the hash one, apart from witness
programs. -/
def signatureHash (sigversion : SigVersion) : Uint256 :=
  if sigversion = .witnessV0 then
    hashBytes (witnessV0Bytes scriptCode txTo nIn nHashType amount cache ++ serHashType nHashType)
  else if hashSingle nHashType = true ∧ txTo.vout.length ≤ nIn.val then 1
  else hashBytes (serializeForSignature txTo scriptCode nIn nHashType ++ serHashType nHashType)

/-- The tag `TidecoinSighashV1_512`. -/
def sighash512Tag : Bytes :=
  "TidecoinSighashV1_512".toList.map fun letter => UInt8.ofNat letter.toNat

/-- The hashes of the spent outputs, which `SIGHASH_ANYONECANPAY` leaves out. They are there when
the data was initialized with one output for each input. -/
def spentHashes : Option Bytes :=
  if anyoneCanPay nHashType then some []
  else match cache with
    | none => none
    | some txdata =>
      if txdata.spentOutputsReady && txdata.bip143Segwit512Ready &&
          txdata.spentOutputs.length = txTo.vin.length then
        some (txdata.hashSpentAmounts512.toBytes ++ txdata.hashSpentScripts512.toBytes)
      else none

/-- What `SignatureHash512` writes, with the hashes of the spent outputs. -/
def witnessV1Bytes (spent : Bytes) : Bytes :=
  let ready := PrecomputedTransactionData.bip143Segwit512Ready
  let fewOutputs := hashSingle nHashType || hashNone nHashType
  let hashPrevouts :=
    if anyoneCanPay nHashType then 0
    else precomputed cache ready (·.hashPrevouts512) (sha512Bytes (prevoutsBytes txTo))
  let hashSequence :=
    if anyoneCanPay nHashType || fewOutputs then 0
    else precomputed cache ready (·.hashSequence512) (sha512Bytes (sequencesBytes txTo))
  let hashOutputs :=
    if !fewOutputs then
      precomputed cache ready (·.hashOutputs512) (sha512Bytes (outputsBytes txTo))
    else if hashSingle nHashType then
      match txTo.vout[nIn.val]? with
      | some txout => sha512Bytes (CTransaction.serTxOut txout)
      | none => 0
    else 0
  Crypto.sha512 sighash512Tag ++ Crypto.sha512 sighash512Tag ++ serUint32 txTo.version ++
    hashPrevouts.toBytes ++ spent ++ hashSequence.toBytes ++ serOutPoint txTo.vin[nIn].prevout ++
    serBytes scriptCode ++ serAmount amount ++ serUint32 txTo.vin[nIn].nSequence ++
    hashOutputs.toBytes ++ serUint32 txTo.nLockTime ++ serHashType nHashType

def signatureHash512 : Option Uint512 :=
  if hashSingle nHashType = true ∧ txTo.vout.length ≤ nIn.val then none
  else (spentHashes txTo nHashType cache).map fun spent =>
    sha512Bytes (witnessV1Bytes scriptCode txTo nIn nHashType amount cache spent)

end

/-- `GenericTransactionSignatureChecker`: what it is built from. -/
structure TransactionSignatureChecker where
  txTo : CTransaction
  nIn : Fin txTo.vin.length
  amount : BitVec 64
  txdata : Option PrecomputedTransactionData
  allowLegacy : Bool

namespace TransactionSignatureChecker

def checkPostQuantumSignature [Crypto] [PqVerify] (checker : TransactionSignatureChecker)
    (vchSigIn vchPubKey scriptCode : Bytes) (sigversion : SigVersion) : Bool :=
  let pubkey := CPubKey.set vchPubKey
  if !pubkey.isValid then false
  -- Before the activation only Falcon-512 signs.
  else if checker.allowLegacy && pubkey.vch.head? ≠ some 0x07 then false
  else match vchSigIn.getLast? with
    | none => false
    | some last =>
      let vchSig := vchSigIn.dropLast
      let nHashType := BitVec.ofNat 32 last.toNat
      if sigversion ≠ .base ∧ checker.amount.toInt < 0 then false
      else if sigversion = .witnessV1512 then
        if nHashType = 0 then false
        else match signatureHash512 scriptCode checker.txTo checker.nIn nHashType checker.amount
            checker.txdata with
          | none => false
          | some sighash => pubkey.verify512 sighash vchSig false
      else pubkey.verify (signatureHash scriptCode checker.txTo checker.nIn nHashType
        checker.amount checker.txdata sigversion) vchSig checker.allowLegacy

def checkLockTime (checker : TransactionSignatureChecker) (nLockTime : Int) : Bool :=
  let txLockTime : Int := checker.txTo.nLockTime.toNat
  if ¬((txLockTime < locktimeThreshold ∧ nLockTime < locktimeThreshold) ∨
      (txLockTime ≥ locktimeThreshold ∧ nLockTime ≥ locktimeThreshold)) then false
  else if nLockTime > txLockTime then false
  else checker.txTo.vin[checker.nIn].nSequence ≠ sequenceFinal

def sequenceLocktimeDisableFlag : UInt32 := 0x80000000

def sequenceLocktimeTypeFlag : UInt32 := 0x400000

def sequenceLocktimeMask : UInt32 := 0xffff

def checkSequence (checker : TransactionSignatureChecker) (nSequence : Int) : Bool :=
  let txToSequence := checker.txTo.vin[checker.nIn].nSequence
  let nLockTimeMask := sequenceLocktimeTypeFlag ||| sequenceLocktimeMask
  let txToSequenceMasked := (txToSequence &&& nLockTimeMask).toNat
  let nSequenceMasked := (BitVec.ofInt 64 nSequence &&& BitVec.ofNat 64 nLockTimeMask.toNat).toNat
  let typeFlag := sequenceLocktimeTypeFlag.toNat
  if checker.txTo.version < 2 then false
  else if txToSequence &&& sequenceLocktimeDisableFlag ≠ 0 then false
  else if ¬((txToSequenceMasked < typeFlag ∧ nSequenceMasked < typeFlag) ∨
      (txToSequenceMasked ≥ typeFlag ∧ nSequenceMasked ≥ typeFlag)) then false
  else nSequenceMasked ≤ txToSequenceMasked

/-- The checker as the interpreter sees it. -/
def toChecker [Crypto] [PqVerify] (checker : TransactionSignatureChecker) : SignatureChecker :=
  ⟨checker.checkPostQuantumSignature, checker.checkLockTime, checker.checkSequence⟩

end TransactionSignatureChecker

/-- The input without its script and its witness. -/
def CTxIn.unsigned (txin : CTxIn) : CTxIn := { txin with scriptSig := [], scriptWitness := [] }

/-- The transaction without the scripts and the witnesses of its inputs. -/
def CTransaction.unsigned (tx : CTransaction) : CTransaction :=
  { tx with vin := tx.vin.map CTxIn.unsigned }

section

variable (txTo : CTransaction)

@[simp] lemma CTransaction.unsigned_vin_length :
    txTo.unsigned.vin.length = txTo.vin.length := List.length_map _

@[simp] lemma CTransaction.unsigned_vin_getElem (nIn : Fin txTo.vin.length) :
    txTo.unsigned.vin[nIn.cast txTo.unsigned_vin_length.symm] = txTo.vin[nIn].unsigned :=
  List.getElem_map _

@[simp] lemma prevoutsBytes_unsigned : prevoutsBytes txTo.unsigned = prevoutsBytes txTo := by
  simp [prevoutsBytes, CTransaction.unsigned, List.flatMap_map, CTxIn.unsigned]

@[simp] lemma sequencesBytes_unsigned : sequencesBytes txTo.unsigned = sequencesBytes txTo := by
  simp [sequencesBytes, CTransaction.unsigned, List.flatMap_map, CTxIn.unsigned]

@[simp] lemma outputsBytes_unsigned : outputsBytes txTo.unsigned = outputsBytes txTo := rfl

variable (scriptCode : Bytes) (nIn : Fin txTo.vin.length) (nHashType : BitVec 32)

lemma serializeInput_unsigned (nInput : Fin txTo.vin.length) :
    serializeInput txTo.unsigned scriptCode (nIn.cast txTo.unsigned_vin_length.symm) nHashType
        (nInput.cast txTo.unsigned_vin_length.symm) =
      serializeInput txTo scriptCode nIn nHashType nInput := by
  have hne : nInput.cast txTo.unsigned_vin_length.symm ≠ nIn.cast txTo.unsigned_vin_length.symm ↔
      nInput ≠ nIn := by
    simp [Fin.ext_iff]
  simp only [serializeInput, CTransaction.unsigned_vin_getElem, hne]
  rfl

lemma serVector_finRange {m n : Nat} (hlength : m = n) (write : Fin n → Bytes) :
    serVector (fun i => write (Fin.cast hlength i)) (List.finRange m) =
      serVector write (List.finRange n) := by
  subst hlength
  rfl

lemma serializeInputs_unsigned :
    serializeInputs txTo.unsigned scriptCode (nIn.cast txTo.unsigned_vin_length.symm) nHashType =
      serializeInputs txTo scriptCode nIn nHashType := by
  unfold serializeInputs
  split
  · simp only [serVector, List.flatMap_cons, List.flatMap_nil, serializeInput_unsigned]
    rfl
  · have hinput : serializeInput txTo.unsigned scriptCode
          (nIn.cast txTo.unsigned_vin_length.symm) nHashType =
        fun i => serializeInput txTo scriptCode nIn nHashType
          (i.cast txTo.unsigned_vin_length) := by
      funext i
      exact serializeInput_unsigned txTo scriptCode nIn nHashType (i.cast txTo.unsigned_vin_length)
    rw [hinput]
    exact serVector_finRange txTo.unsigned_vin_length _

lemma serializeForSignature_unsigned :
    serializeForSignature txTo.unsigned scriptCode (nIn.cast txTo.unsigned_vin_length.symm)
      nHashType =
      serializeForSignature txTo scriptCode nIn nHashType := by
  unfold serializeForSignature
  rw [serializeInputs_unsigned]
  rfl

variable [Crypto] (amount : BitVec 64) (cache : Option PrecomputedTransactionData)

lemma signatureHash_unsigned (sigversion : SigVersion) :
    signatureHash scriptCode txTo.unsigned (nIn.cast txTo.unsigned_vin_length.symm) nHashType amount
        cache sigversion = signatureHash scriptCode txTo nIn nHashType amount cache sigversion := by
  have hbytes : witnessV0Bytes scriptCode txTo.unsigned (nIn.cast txTo.unsigned_vin_length.symm)
        nHashType amount cache =
      witnessV0Bytes scriptCode txTo nIn nHashType amount cache := by
    simp only [witnessV0Bytes, CTransaction.unsigned_vin_getElem, prevoutsBytes_unsigned,
      sequencesBytes_unsigned, outputsBytes_unsigned]
    rfl
  unfold signatureHash
  rw [hbytes, serializeForSignature_unsigned]
  rfl

lemma signatureHash512_unsigned :
    signatureHash512 scriptCode txTo.unsigned (nIn.cast txTo.unsigned_vin_length.symm) nHashType
        amount cache = signatureHash512 scriptCode txTo nIn nHashType amount cache := by
  have hspent : spentHashes txTo.unsigned nHashType cache = spentHashes txTo nHashType cache := by
    simp only [spentHashes, CTransaction.unsigned_vin_length]
  have hbytes : witnessV1Bytes scriptCode txTo.unsigned (nIn.cast txTo.unsigned_vin_length.symm)
        nHashType amount cache =
      witnessV1Bytes scriptCode txTo nIn nHashType amount cache := by
    funext spent
    simp only [witnessV1Bytes, CTransaction.unsigned_vin_getElem, prevoutsBytes_unsigned,
      sequencesBytes_unsigned, outputsBytes_unsigned]
    rfl
  unfold signatureHash512
  rw [hspent, hbytes]
  rfl

lemma PrecomputedTransactionData.init_unsigned (spentOutputs : List CTxOut) :
    init txTo.unsigned spentOutputs true = init txTo spentOutputs true := by
  simp only [init, Bool.true_or, prevoutsBytes_unsigned, sequencesBytes_unsigned,
    outputsBytes_unsigned]

end

namespace TransactionSignatureChecker

variable [Crypto] [PqVerify]

omit [Crypto] [PqVerify] in
/-- The checker of the transaction without scripts and witnesses. -/
def unsigned (checker : TransactionSignatureChecker) : TransactionSignatureChecker where
  txTo := checker.txTo.unsigned
  nIn := checker.nIn.cast checker.txTo.unsigned_vin_length.symm
  amount := checker.amount
  txdata := checker.txdata
  allowLegacy := checker.allowLegacy

lemma toChecker_unsigned (checker : TransactionSignatureChecker) :
    checker.unsigned.toChecker = checker.toChecker := by
  have hsignature :
      checker.unsigned.checkPostQuantumSignature = checker.checkPostQuantumSignature := by
    funext vchSigIn vchPubKey scriptCode sigversion
    simp only [checkPostQuantumSignature, unsigned, signatureHash_unsigned,
      signatureHash512_unsigned]
  have hlock : checker.unsigned.checkLockTime = checker.checkLockTime := by
    funext nLockTime
    simp only [checkLockTime, unsigned, CTransaction.unsigned_vin_getElem]
    rfl
  have hsequence : checker.unsigned.checkSequence = checker.checkSequence := by
    funext nSequence
    simp only [checkSequence, unsigned, CTransaction.unsigned_vin_getElem]
    rfl
  simp only [toChecker, hsignature, hlock, hsequence]

lemma toChecker_congr {checker other : TransactionSignatureChecker}
    (htx : checker.txTo.unsigned = other.txTo.unsigned) (hnIn : checker.nIn.val = other.nIn.val)
    (hamount : checker.amount = other.amount) (htxdata : checker.txdata = other.txdata)
    (hlegacy : checker.allowLegacy = other.allowLegacy) : checker.toChecker = other.toChecker := by
  have hmk : ∀ (tx tx' : CTransaction) (i : Fin tx.vin.length) (i' : Fin tx'.vin.length) amount
      txdata legacy, tx = tx' → i.val = i'.val →
      TransactionSignatureChecker.mk tx i amount txdata legacy =
        ⟨tx', i', amount, txdata, legacy⟩ := by
    rintro tx _ i i' amount txdata legacy rfl hi
    rw [Fin.ext hi]
  have hunsigned : checker.unsigned = other.unsigned := by
    simp only [unsigned, hamount, htxdata, hlegacy]
    exact hmk _ _ _ _ _ _ _ htx hnIn
  rw [← toChecker_unsigned checker, hunsigned, toChecker_unsigned]

end TransactionSignatureChecker

/-- A checker at one signature version. -/
def SignatureChecker.onlyAt (checker : SignatureChecker) (sigversion : SigVersion) :
    SignatureChecker where
  checkPostQuantumSignature vchSig vchPubKey scriptCode _ :=
    checker.checkPostQuantumSignature vchSig vchPubKey scriptCode sigversion
  checkLockTime := checker.checkLockTime
  checkSequence := checker.checkSequence

section

variable [Crypto] {flags : ScriptFlags}

lemma evalScript_congr {checker other : SignatureChecker} {sigversion : SigVersion}
    (hagree : checker.onlyAt sigversion = other.onlyAt sigversion) :
    evalScript flags checker sigversion = evalScript flags other sigversion := by
  have honly : ∀ checker : SignatureChecker, evalScript flags checker sigversion =
      evalScript flags (checker.onlyAt sigversion) sigversion := fun _ => rfl
  rw [honly checker, hagree, ← honly other]

/-- An empty witness satisfies no witness v1 program, so that without a witness no signature is
checked for one. -/
theorem verifyScript_congr_of_no_witness {checker other : SignatureChecker}
    (hbase : checker.onlyAt .base = other.onlyAt .base)
    (hv0 : checker.onlyAt .witnessV0 = other.onlyAt .witnessV0) (scriptSig scriptPubKey : Bytes) :
    verifyScript flags checker scriptSig scriptPubKey [] =
      verifyScript flags other scriptSig scriptPubKey [] := by
  have heval : evalScript flags checker .base = evalScript flags other .base :=
    evalScript_congr hbase
  have hprogram : verifyWitnessProgram flags checker [] = verifyWitnessProgram flags other [] := by
    funext witversion program
    simp only [verifyWitnessProgram, executeScriptHash, executeWitnessScript, List.reverse_nil,
      evalScript_congr hv0]
  simp only [verifyScript, verifyNested, verifyScriptHash, verifyIfWitnessProgram, heval, hprogram]

lemma signatureHash_init (scriptCode : Bytes) (txTo : CTransaction) (nIn : Fin txTo.vin.length)
    (nHashType : BitVec 32) (amount : BitVec 64) (sigversion : SigVersion)
    (spentOutputs : List CTxOut) (force : Bool) :
    signatureHash scriptCode txTo nIn nHashType amount
        (some (PrecomputedTransactionData.init txTo spentOutputs force)) sigversion =
      signatureHash scriptCode txTo nIn nHashType amount none sigversion := by
  have hready : ∀ {α : Type} (hash : PrecomputedTransactionData → α) (computed : α),
      ((force || txTo.hasWitness) → hash (.init txTo spentOutputs force) = computed) →
      precomputed (some (PrecomputedTransactionData.init txTo spentOutputs force))
        PrecomputedTransactionData.bip143SegwitReady hash computed = computed := by
    intro α hash computed hhash
    change (if (force || txTo.hasWitness) = true then _ else computed) = computed
    split
    case isTrue hforce => exact hhash hforce
    case isFalse => rfl
  have hbytes : witnessV0Bytes scriptCode txTo nIn nHashType amount
        (some (.init txTo spentOutputs force)) =
      witnessV0Bytes scriptCode txTo nIn nHashType amount none := by
    dsimp only [witnessV0Bytes]
    rw [hready, hready, hready]
    · rfl
    all_goals
      intro hforce
      exact if_pos hforce
  unfold signatureHash
  rw [hbytes]

end

namespace TransactionSignatureChecker

variable [Crypto] [PqVerify]

lemma onlyAt_init {sigversion : SigVersion} (hversion : sigversion ≠ .witnessV1512)
    (txTo : CTransaction) (nIn : Fin txTo.vin.length) (amount : BitVec 64)
    (spentOutputs : List CTxOut) (force force' legacy : Bool) :
    SignatureChecker.onlyAt (toChecker ⟨txTo, nIn, amount,
        some (.init txTo spentOutputs force), legacy⟩) sigversion =
      SignatureChecker.onlyAt (toChecker ⟨txTo, nIn, amount,
        some (.init txTo spentOutputs force'), legacy⟩) sigversion := by
  have hsignature : ∀ vchSigIn vchPubKey scriptCode,
      checkPostQuantumSignature ⟨txTo, nIn, amount, some (.init txTo spentOutputs force), legacy⟩
          vchSigIn vchPubKey scriptCode sigversion =
        checkPostQuantumSignature ⟨txTo, nIn, amount, some (.init txTo spentOutputs force'), legacy⟩
          vchSigIn vchPubKey scriptCode sigversion := by
    intro vchSigIn vchPubKey scriptCode
    simp only [checkPostQuantumSignature, if_neg hversion, signatureHash_init]
  simp only [SignatureChecker.onlyAt, toChecker, hsignature]
  rfl

/-- A spend that is valid with the data computed by force is valid with the data a node computes for
the transaction, which leaves the hashes out when there is no witness. -/
theorem verifyScript_init {flags : ScriptFlags} {txTo : CTransaction} {nIn : Fin txTo.vin.length}
    {amount : BitVec 64} {spentOutputs : List CTxOut} {legacy : Bool} {scriptPubKey : Bytes}
    (force : Bool)
    (hvalid : verifyScript flags
        (toChecker ⟨txTo, nIn, amount, some (.init txTo spentOutputs true), legacy⟩)
        txTo.vin[nIn].scriptSig scriptPubKey txTo.vin[nIn].scriptWitness = .ok ()) :
    verifyScript flags (toChecker ⟨txTo, nIn, amount, some (.init txTo spentOutputs force), legacy⟩)
        txTo.vin[nIn].scriptSig scriptPubKey txTo.vin[nIn].scriptWitness = .ok () := by
  cases hwitness : txTo.hasWitness with
  | true =>
    have hinit : PrecomputedTransactionData.init txTo spentOutputs force =
        .init txTo spentOutputs true := by
      simp only [PrecomputedTransactionData.init, hwitness, Bool.or_true]
    rw [hinit]
    exact hvalid
  | false =>
    have hempty : txTo.vin[nIn].scriptWitness = [] := by
      have hnone := List.any_eq_false.1 hwitness txTo.vin[nIn] (List.getElem_mem _)
      simpa using hnone
    rw [hempty] at hvalid ⊢
    rw [verifyScript_congr_of_no_witness (onlyAt_init (by decide) ..) (onlyAt_init (by decide) ..)]
    exact hvalid

end TransactionSignatureChecker

end Tidecoin
