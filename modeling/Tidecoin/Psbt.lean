import Tidecoin.Script.Sign
import Tidecoin.Coins
import Tidecoin.Serialize

/-!
Partially signed transactions: `psbt.h` and `psbt.cpp`, from the records of an input to the
extraction of the transaction. The records come from other parties. Extraction finalizes the inputs
one by one, with hashes computed before the first of them, and takes a final script from the records
only after it was verified.

The main result is about the extracted transaction as a whole: each of its inputs satisfies the
script of the output recorded for it, with a checker built from that transaction and the recorded
outputs.
-/

namespace Tidecoin

open Lib Script PrecomputedTransactionData List TransactionSignatureChecker

/-- What the key of a proprietary record holds behind its type: the identifier, the subtype and the
data of the key. -/
def parseProprietaryKey (key : Bytes) : Option (Bytes × Nat × Bytes) :=
  match key with
  | 0xfc :: rest =>
    let read : Reader String (Bytes × Nat) := do
      let identifier ← readBytes
      let subtype ← readCompactSize
      return (identifier, subtype)
    match read.run rest with
    | .ok ((identifier, subtype), keydata) => some (identifier, subtype, keydata)
    | .error _ => none
  | _ => none

/-- The key of a proprietary record. Reading a record fails when its key does not parse. -/
structure ProprietaryKey where
  bytes : Bytes
  parsed : (parseProprietaryKey bytes).isSome = true
deriving DecidableEq

/-- `std::set<PSBTProprietary>`: the records are ordered by their key alone, so that each key has
one value. -/
abbrev ProprietaryRecords := AList fun _ : ProprietaryKey => Bytes

structure PSBTInput where
  nonWitnessUtxo : Option CTransaction
  witnessUtxo : CTxOut
  redeemScript : Bytes
  witnessScript : Bytes
  finalScriptSig : Bytes
  finalScriptWitness : List Bytes
  partialSigs : AList fun _ : Uint160 => CPubKey × Bytes
  ripemd160Preimages : AList fun _ : Uint160 => Bytes
  sha256Preimages : AList fun _ : Uint256 => Bytes
  hash160Preimages : AList fun _ : Uint160 => Bytes
  hash256Preimages : AList fun _ : Uint256 => Bytes
  unknown : AList fun _ : Bytes => Bytes
  proprietary : ProprietaryRecords
  sighashType : Option (BitVec 32)

structure PSBTOutput where
  redeemScript : Bytes
  witnessScript : Bytes
  unknown : AList fun _ : Bytes => Bytes
  proprietary : ProprietaryRecords

inductive PSBTInputIntent where
  | sign
  | inspect
deriving DecidableEq, Repr

namespace PSBTInput

/-- `PSBTInput()`. -/
def empty : PSBTInput := ⟨none, nullTxOut, [], [], [], [], ∅, ∅, ∅, ∅, ∅, ∅, ∅, none⟩

/-- `PSBTInputSigned`. -/
def signed (input : PSBTInput) : Bool :=
  !input.finalScriptSig.isEmpty || !input.finalScriptWitness.isEmpty

/-- A map of preimages under the bytes of the hashes, added to the one that is there. -/
def fillPreimages {n : Nat} (toBytes : BitVec n → Bytes)
    (preimages : AList fun _ : BitVec n => Bytes)
    (known : AList fun _ : Bytes => Bytes) : AList fun _ : Bytes => Bytes :=
  preimages.entries.foldl (fun known entry => emplace known (toBytes entry.1) entry.2) known

def fillSignatureData (input : PSBTInput) (sigdata : SignatureData) : SignatureData :=
  let sigdata :=
    if input.finalScriptSig.isEmpty then sigdata
    else { sigdata with scriptSig := input.finalScriptSig, complete := true }
  let sigdata :=
    if input.finalScriptWitness.isEmpty then sigdata
    else { sigdata with scriptWitness := input.finalScriptWitness, complete := true }
  if sigdata.complete then sigdata
  else
    { sigdata with
      signatures := mergeMap sigdata.signatures input.partialSigs
      redeemScript :=
        if input.redeemScript.isEmpty then sigdata.redeemScript else input.redeemScript
      witnessScript :=
        if input.witnessScript.isEmpty then sigdata.witnessScript else input.witnessScript
      ripemd160Preimages :=
        fillPreimages Uint160.toBytes input.ripemd160Preimages sigdata.ripemd160Preimages
      sha256Preimages := fillPreimages Uint256.toBytes input.sha256Preimages sigdata.sha256Preimages
      hash160Preimages :=
        fillPreimages Uint160.toBytes input.hash160Preimages sigdata.hash160Preimages
      hash256Preimages :=
        fillPreimages Uint256.toBytes input.hash256Preimages sigdata.hash256Preimages }

def fromSignatureData (input : PSBTInput) (sigdata : SignatureData) : PSBTInput :=
  if sigdata.complete then
    { input with
      partialSigs := ∅
      redeemScript := []
      witnessScript := []
      finalScriptSig :=
        if sigdata.scriptSig.isEmpty then input.finalScriptSig else sigdata.scriptSig
      finalScriptWitness :=
        if sigdata.scriptWitness.isEmpty then input.finalScriptWitness
        else sigdata.scriptWitness }
  else
    { input with
      partialSigs := mergeMap input.partialSigs sigdata.signatures
      redeemScript :=
        if input.redeemScript.isEmpty then sigdata.redeemScript else input.redeemScript
      witnessScript :=
        if input.witnessScript.isEmpty then sigdata.witnessScript else input.witnessScript }

variable [Crypto]

section

variable (input : PSBTInput) (prevout : COutPoint)

def isUTXOConsistent : Bool :=
  match input.nonWitnessUtxo with
  | none => true
  | some previous =>
    if previous.getHash ≠ prevout.hash then false
    else match previous.vout[prevout.n.toNat]? with
      | none => false
      | some txout => input.witnessUtxo.isNull || input.witnessUtxo = txout

/-- The output the records of the input give for its prevout: the one of the full previous
transaction where it is there, and else the summary. -/
def recordedOutput : Option CTxOut :=
  match input.nonWitnessUtxo with
  | some previous =>
    if previous.getHash ≠ prevout.hash then none else previous.vout[prevout.n.toNat]?
  | none => if input.witnessUtxo.isNull then none else some input.witnessUtxo

/-- `GetInputUTXO`, for the input that spends `prevout`. -/
def getInputUTXO : Option CTxOut :=
  if !input.isUTXOConsistent prevout then none else input.recordedOutput prevout

end

variable [PqVerify]

/-- The checker of an input under the given flags: without `PQ_STRICT` legacy verification is
allowed. -/
def checkerFor (tx : CTransaction) (index : Fin tx.vin.length) (amount : BitVec 64)
    (txdata : Option PrecomputedTransactionData) (scriptVerifyFlags : ScriptFlags) :
    TransactionSignatureChecker :=
  ⟨tx, index, amount, txdata, !scriptVerifyFlags.has .pqStrict⟩

/-- `PSBTInputSignedAndVerified`. -/
def signedAndVerified (input : PSBTInput) (tx : CTransaction) (index : Fin tx.vin.length)
    (txdata : Option PrecomputedTransactionData) (scriptVerifyFlags : ScriptFlags) : Bool :=
  match input.getInputUTXO (tx.vin.get index).prevout with
  | none => false
  | some utxo =>
    (verifyScript scriptVerifyFlags
      (checkerFor tx index utxo.nValue txdata scriptVerifyFlags).toChecker
      input.finalScriptSig utxo.scriptPubKey input.finalScriptWitness).isOk

variable [PqSign] [MiniscriptSatisfier]

omit [Crypto] [PqVerify] [PqSign] [MiniscriptSatisfier] in
/-- The lambda `report_missing` of `SignPSBTInput`. -/
def reportMissing (sigdata outSigdata : SignatureData) : SignatureData :=
  { outSigdata with
    missingPubkeys := sigdata.missingPubkeys
    missingSigs := sigdata.missingSigs
    missingRedeemScript := sigdata.missingRedeemScript
    missingWitnessScript := sigdata.missingWitnessScript }

omit [Crypto] [PqVerify] [PqSign] [MiniscriptSatisfier] in
/-- The output is recorded as a summary when a witness was found for it. -/
def withWitnessUtxo (input : PSBTInput) (utxo : CTxOut) (sigdata : SignatureData) : PSBTInput :=
  if sigdata.witness then { input with witnessUtxo := utxo } else input

section

omit [Crypto] [PqVerify] [PqSign] [MiniscriptSatisfier]

variable (input : PSBTInput) (utxo : CTxOut) (sigdata : SignatureData)

lemma withWitnessUtxo_finalScriptSig :
    (input.withWitnessUtxo utxo sigdata).finalScriptSig = input.finalScriptSig := by
  unfold withWitnessUtxo
  split <;> rfl

lemma withWitnessUtxo_finalScriptWitness :
    (input.withWitnessUtxo utxo sigdata).finalScriptWitness = input.finalScriptWitness := by
  unfold withWitnessUtxo
  split <;> rfl

lemma withWitnessUtxo_nonWitnessUtxo :
    (input.withWitnessUtxo utxo sigdata).nonWitnessUtxo = input.nonWitnessUtxo := by
  unfold withWitnessUtxo
  split <;> rfl

lemma withWitnessUtxo_witnessUtxo :
    (input.withWitnessUtxo utxo sigdata).witnessUtxo = input.witnessUtxo ∨
      (input.withWitnessUtxo utxo sigdata).witnessUtxo = utxo := by
  unfold withWitnessUtxo
  split
  · exact .inr rfl
  · exact .inl rfl

end

/-- What `SignPSBTInput` is called with, apart from the input. -/
structure SignRequest where
  provider : SigningProvider
  txdata : Option PrecomputedTransactionData
  sighash : Option (BitVec 32)
  finalize : Bool
  scriptVerifyFlags : ScriptFlags
  intent : PSBTInputIntent

/-- The result of `SignPSBTInput`: the error, the input and `out_sigdata`. -/
abbrev SignResult := PSBTError × PSBTInput × SignatureData

namespace SignRequest

variable (request : SignRequest) (tx : CTransaction) (index : Fin tx.vin.length)

omit [Crypto] [PqVerify] [PqSign] [MiniscriptSatisfier] in
/-- The hash type of new signatures. -/
def requested (input : PSBTInput) : BitVec 32 :=
  match request.intent with
  | .sign => request.sighash.getD sighashAll
  | .inspect => input.sighashType.getD sighashAll

/-- The creator of `SignPSBTInput`, before its constraints are set. -/
def creator (utxo : CTxOut) (txdata : PrecomputedTransactionData) (requested : BitVec 32) :
    TransactionSignatureCreator :=
  .new (checkerFor tx index utxo.nValue (some txdata) request.scriptVerifyFlags) requested

/-- The lambda `preserve_public_metadata` of `SignPSBTInput`. -/
def preservePublicMetadata (input : PSBTInput) (utxo : CTxOut)
    (sigdata outSigdata : SignatureData) :
    PSBTInput × SignatureData :=
  match request.intent, request.txdata with
  | .inspect, some txdata =>
    let creator := request.creator tx index utxo txdata (request.requested input)
    let (_, state) :=
      produceSignature (request.provider.hidingSigningProvider true) creator.toCreator
      utxo.scriptPubKey request.scriptVerifyFlags
      ⟨{ sigdata with missingPubkeys := [], missingSigs := [] }, ⟨.ok, false⟩⟩
    let sigdata := { state.sigdata with complete := false }
    ((input.fromSignatureData sigdata).withWitnessUtxo utxo sigdata,
      reportMissing sigdata outSigdata)
  | _, _ => (input, outSigdata)

/-- A failure that inspection explains and signing passes over. -/
def explain (error : PSBTError) (input : PSBTInput) (utxo : CTxOut)
    (sigdata outSigdata : SignatureData) : SignResult :=
  let error := match request.intent with
    | .inspect => error
    | .sign => .incomplete
  (error, request.preservePublicMetadata tx index input utxo sigdata outSigdata)

section

variable (input : PSBTInput) (utxo : CTxOut)

omit [Crypto] [PqVerify] [PqSign] [MiniscriptSatisfier] in
/-- The end of `SignPSBTInput`: what was found is stored in the input. -/
def store (sigComplete signedNew : Bool) (sigdata outSigdata : SignatureData) : SignResult :=
  let outSigdata := reportMissing sigdata outSigdata
  -- A summary is no proof of the output, so that only a witness signature may rest on it.
  if input.nonWitnessUtxo.isNone && !sigdata.witness then (.incomplete, input, outSigdata)
  else
    let sigdata := { sigdata with complete := request.finalize && sigdata.complete }
    let stored := input.fromSignatureData sigdata
    let stored :=
      if signedNew && request.requested input ≠ sighashAll && !stored.signed then
        { stored with sighashType := some (request.requested input) }
      else stored
    (if sigComplete then .ok else .incomplete, stored.withWitnessUtxo utxo sigdata, outSigdata)

/-- Signing without precomputed data, which only fills in the metadata. -/
def signDummy (declarationMatch : Bool) (sigdata outSigdata : SignatureData) : SignResult :=
  if singleWithoutOutput (request.requested input) index tx.vout.length then
    (.singleWithoutOutput, input, outSigdata)
  else if !isSupportedSighash (request.requested input) then
    (.sighashUnsupported, input, outSigdata)
  else if !declarationMatch then (.sighashMismatch, input, outSigdata)
  else
    let (sigComplete, state) := produceSignature request.provider (.dummy false) utxo.scriptPubKey
      request.scriptVerifyFlags ⟨sigdata, ⟨.ok, false⟩⟩
    request.store input utxo sigComplete false state.sigdata outSigdata

/-- Signing with precomputed data. -/
def signTransaction (txdata : PrecomputedTransactionData)
    (existingMatch declarationMatch : Bool) (sigdata outSigdata : SignatureData) : SignResult :=
  let creator := (request.creator tx index utxo txdata (request.requested input)).setPSBTConstraints
    input.sighashType (existingMatch && declarationMatch)
  let (sigComplete, state) := produceSignature request.provider creator.toCreator utxo.scriptPubKey
    request.scriptVerifyFlags ⟨sigdata, ⟨.ok, false⟩⟩
  if state.creator.error ≠ .ok then (state.creator.error, input, state.sigdata)
  else if !declarationMatch && !state.creator.signed then
    request.explain tx index .sighashMismatch input utxo state.sigdata outSigdata
  else request.store input utxo sigComplete state.creator.signed state.sigdata outSigdata

/-- The part of `SignPSBTInput` after the output is known. -/
def signRecorded (outSigdata : SignatureData) : SignResult :=
  let sigdata := input.fillSignatureData .empty
  let modes := input.partialSigs.entries.map fun entry =>
    entry.2.2.getLast?.map fun last => BitVec.ofNat 32 last.toNat
  if modes.any (·.any fun mode => singleWithoutOutput mode index tx.vout.length) then
    request.explain tx index .singleWithoutOutput input utxo sigdata outSigdata
  else
    let existingMatch := modes.all (· = some (request.requested input))
    let declarationMatch := modes.all (· = some (input.sighashType.getD sighashAll))
    let sigdata := { sigdata with witness := false }
    match request.txdata with
    | none => request.signDummy tx index input utxo declarationMatch sigdata outSigdata
    | some txdata =>
      request.signTransaction tx index input utxo txdata existingMatch declarationMatch sigdata
        outSigdata

end

/-- `SignPSBTInput`, on the input it changes. -/
def signPSBTInput (input : PSBTInput) (outSigdata : SignatureData) : SignResult :=
  let prevout := (tx.vin.get index).prevout
  if !input.isUTXOConsistent prevout then (.utxoMismatch, input, outSigdata)
  else if input.signedAndVerified tx index request.txdata request.scriptVerifyFlags then
    (.ok, input, outSigdata)
  else if input.signed then (.incomplete, input, outSigdata)
  else match input.recordedOutput prevout with
    | none => (.missingInputs, input, outSigdata)
    | some utxo => request.signRecorded tx index input utxo outSigdata

end SignRequest

variable {input : PSBTInput} {prevout : COutPoint}

section

omit [PqVerify] [PqSign] [MiniscriptSatisfier]

lemma getInputUTXO_eq_some {utxo : CTxOut} : input.getInputUTXO prevout = some utxo ↔
      input.isUTXOConsistent prevout ∧ input.recordedOutput prevout = some utxo := by
  cases hconsistent : input.isUTXOConsistent prevout <;> simp [getInputUTXO, hconsistent]

variable {utxo : CTxOut} (hutxo : input.getInputUTXO prevout = some utxo)
include hutxo

lemma getInputUTXO_previous {previous : CTransaction}
    (hprevious : input.nonWitnessUtxo = some previous) :
    previous.getHash = prevout.hash ∧ previous.vout[prevout.n.toNat]? = some utxo := by
  have hrecorded := (getInputUTXO_eq_some.1 hutxo).2
  rw [recordedOutput, hprevious] at hrecorded
  dsimp only at hrecorded
  split at hrecorded
  · cases hrecorded
  case isFalse hhash => exact ⟨not_not.1 hhash, hrecorded⟩

lemma getInputUTXO_of_same {stored : PSBTInput}
    (hprevious : stored.nonWitnessUtxo = input.nonWitnessUtxo)
    (hwitness : stored.witnessUtxo = input.witnessUtxo ∨ stored.witnessUtxo = utxo) :
    stored.getInputUTXO prevout = some utxo := by
  rw [getInputUTXO_eq_some] at hutxo ⊢
  obtain ⟨hconsistent, hrecorded⟩ := hutxo
  unfold isUTXOConsistent at hconsistent ⊢
  unfold recordedOutput at hrecorded ⊢
  rw [hprevious]
  cases hfull : input.nonWitnessUtxo with
  | none =>
    simp only [hfull] at hrecorded ⊢
    split at hrecorded
    · cases hrecorded
    case isFalse hnull =>
      cases hrecorded
      have hsame : stored.witnessUtxo = input.witnessUtxo := hwitness.elim id id
      rw [hsame, if_neg hnull]
      exact ⟨trivial, rfl⟩
  | some previous =>
    simp only [hfull] at hconsistent hrecorded ⊢
    refine ⟨?_, hrecorded⟩
    split at hrecorded
    · cases hrecorded
    case isFalse hhash =>
      rw [if_neg hhash] at hconsistent ⊢
      rw [hrecorded] at hconsistent ⊢
      rcases hwitness with hsame | hsame
      · rw [hsame]
        exact hconsistent
      · simp [hsame]

end

/-- What extraction needs of an input: the records give the output both before and after, and the
final fields satisfy its script. -/
structure Finalized (tx : CTransaction) (index : Fin tx.vin.length)
    (txdata : PrecomputedTransactionData) (flags : ScriptFlags) (utxo : CTxOut)
    (input final : PSBTInput) : Prop where
  recorded : input.getInputUTXO (tx.vin.get index).prevout = some utxo
  kept : final.getInputUTXO (tx.vin.get index).prevout = some utxo
  valid : verifyScript flags (checkerFor tx index utxo.nValue (some txdata) flags).toChecker
    final.finalScriptSig utxo.scriptPubKey final.finalScriptWitness = .ok ()

namespace SignRequest

variable {request : SignRequest} {tx : CTransaction} {index : Fin tx.vin.length}
  {txdata : PrecomputedTransactionData} {input : PSBTInput} {utxo : CTxOut}
  {outSigdata : SignatureData}

variable {sigdata : SignatureData}

lemma explain_ne_ok {error : PSBTError} (herror : error ≠ .ok) :
    (request.explain tx index error input utxo sigdata outSigdata).1 ≠ .ok := by
  unfold explain
  cases request.intent with
  | sign => exact fun hok => by cases hok
  | inspect => exact herror

omit [Crypto] [PqVerify] [PqSign] [MiniscriptSatisfier] in
lemma final_of_fromSignatureData (hunsigned : input.signed = false) (hcomplete : sigdata.complete) :
    (input.fromSignatureData sigdata).finalScriptSig = sigdata.scriptSig ∧
      (input.fromSignatureData sigdata).finalScriptWitness = sigdata.scriptWitness := by
  have hempty : input.finalScriptSig = [] ∧ input.finalScriptWitness = [] := by
    simpa [signed] using hunsigned
  rw [fromSignatureData, if_pos hcomplete, hempty.1, hempty.2]
  constructor
  · cases sigdata.scriptSig <;> rfl
  · cases sigdata.scriptWitness <;> rfl

section

variable (hfinalize : request.finalize)
    (hutxo : input.getInputUTXO (tx.vin.get index).prevout = some utxo)
    (hunsigned : input.signed = false)
include hfinalize hutxo hunsigned

omit [PqSign] [MiniscriptSatisfier] in
lemma store_finalized {sigComplete signedNew : Bool}
    (hverified : sigComplete → sigdata.Verified request.scriptVerifyFlags
      (checkerFor tx index utxo.nValue (some txdata) request.scriptVerifyFlags).toChecker
        utxo.scriptPubKey)
    (hok : (request.store input utxo sigComplete signedNew sigdata outSigdata).1 = .ok) :
    Finalized tx index txdata request.scriptVerifyFlags utxo input
      (request.store input utxo sigComplete signedNew sigdata outSigdata).2.1 := by
  unfold store at hok ⊢
  split at hok
  · cases hok
  case isFalse hwitness =>
    rw [if_neg hwitness]
    cases sigComplete with
    | false => cases hok
    | true =>
      obtain ⟨hcomplete, hvalid⟩ := hverified rfl
      have hkept : ({ sigdata with complete := request.finalize && sigdata.complete } :
          SignatureData) = sigdata := by
        rw [hfinalize, hcomplete]
        simp [← hcomplete]
      rw [hkept]
      have hstored := final_of_fromSignatureData hunsigned hcomplete
      have hrecords : (input.fromSignatureData sigdata).nonWitnessUtxo = input.nonWitnessUtxo ∧
          (input.fromSignatureData sigdata).witnessUtxo = input.witnessUtxo := by
        rw [fromSignatureData, if_pos hcomplete]
        exact ⟨rfl, rfl⟩
      refine ⟨hutxo, getInputUTXO_of_same hutxo ?_ ?_, ?_⟩
      · rw [withWitnessUtxo_nonWitnessUtxo]
        split <;> exact hrecords.1
      · rw [← hrecords.2]
        refine (withWitnessUtxo_witnessUtxo _ utxo sigdata).imp_left fun hsame => hsame.trans ?_
        split <;> rfl
      · rw [withWitnessUtxo_finalScriptSig, withWitnessUtxo_finalScriptWitness]
        split <;> rwa [hstored.1, hstored.2]

lemma signTransaction_finalized {existingMatch declarationMatch : Bool}
    (hopen : sigdata.complete = false)
    (hok : (request.signTransaction tx index input utxo txdata existingMatch declarationMatch
      sigdata outSigdata).1 = .ok) :
    Finalized tx index txdata request.scriptVerifyFlags utxo input
      (request.signTransaction tx index input utxo txdata existingMatch declarationMatch sigdata
        outSigdata).2.1 := by
  unfold signTransaction at hok ⊢
  dsimp only at hok ⊢
  generalize hrun : produceSignature request.provider _ utxo.scriptPubKey _ _ = run at hok ⊢
  obtain ⟨sigComplete, state⟩ := run
  dsimp only at hok ⊢
  split at hok
  case isTrue herror => exact absurd hok herror
  case isFalse herror =>
  rw [if_neg herror]
  split at hok
  · exact absurd hok (explain_ne_ok (by decide))
  case isFalse hmatch =>
  rw [if_neg hmatch]
  refine store_finalized hfinalize hutxo hunsigned (fun hcomplete => ?_) hok
  have hverified := produceSignature_verified hopen ((congrArg Prod.fst hrun).trans hcomplete)
  rw [hrun] at hverified
  exact hverified

end

lemma signRecorded_finalized (htxdata : request.txdata = some txdata) (hfinalize : request.finalize)
    (hutxo : input.getInputUTXO (tx.vin.get index).prevout = some utxo)
    (hunsigned : input.signed = false)
    (hok : (request.signRecorded tx index input utxo outSigdata).1 = .ok) :
    Finalized tx index txdata request.scriptVerifyFlags utxo input
      (request.signRecorded tx index input utxo outSigdata).2.1 := by
  have hopen : (input.fillSignatureData .empty).complete = false := by
    have hempty : input.finalScriptSig = [] ∧ input.finalScriptWitness = [] := by
      simpa [signed] using hunsigned
    simp [fillSignatureData, hempty, SignatureData.empty]
  unfold signRecorded at hok ⊢
  dsimp only at hok ⊢
  split at hok
  · exact absurd hok (explain_ne_ok (by decide))
  case isFalse hsingle =>
  rw [if_neg hsingle, htxdata]
  rw [htxdata] at hok
  exact signTransaction_finalized hfinalize hutxo hunsigned hopen hok

lemma signPSBTInput_finalized (htxdata : request.txdata = some txdata)
    (hfinalize : request.finalize)
    (hok : (request.signPSBTInput tx index input outSigdata).1 = .ok) :
    ∃ utxo, Finalized tx index txdata request.scriptVerifyFlags utxo input
      (request.signPSBTInput tx index input outSigdata).2.1 := by
  unfold signPSBTInput at hok ⊢
  dsimp only at hok ⊢
  split at hok
  · cases hok
  case isFalse hconsistent =>
  rw [if_neg hconsistent]
  split at hok
  case isTrue hverified =>
    -- Final fields from the records are taken only after they were verified.
    rw [if_pos hverified]
    unfold signedAndVerified at hverified
    split at hverified
    · cases hverified
    case h_2 utxo hutxo =>
      rw [htxdata] at hverified
      exact ⟨utxo, hutxo, hutxo, isOk_iff.1 hverified⟩
  case isFalse hunverified =>
  rw [if_neg hunverified]
  split at hok
  · cases hok
  case isFalse hunsigned =>
  rw [if_neg hunsigned]
  cases hrecorded : input.recordedOutput (tx.vin.get index).prevout with
  | none =>
    rw [hrecorded] at hok
    cases hok
  | some utxo =>
    rw [hrecorded] at hok
    have hutxo : input.getInputUTXO (tx.vin.get index).prevout = some utxo :=
      getInputUTXO_eq_some.2 ⟨by simpa using hconsistent, hrecorded⟩
    exact ⟨utxo, signRecorded_finalized htxdata hfinalize hutxo (by simpa using hunsigned) hok⟩

end SignRequest

end PSBTInput

structure PartiallySignedTransaction where
  tx : Option CTransaction
  inputs : List PSBTInput
  outputs : List PSBTOutput
  unknown : AList fun _ : Bytes => Bytes
  version : Option UInt32
  proprietary : ProprietaryRecords

/-- `STANDARD_SCRIPT_VERIFY_FLAGS`, as flags the interpreter can be called with. -/
def ScriptFlags.standard : ScriptFlags where
  flags := standardScriptVerifyFlags
  cleanstackRule _ := by decide
  witnessRule _ := by decide

namespace PartiallySignedTransaction

variable [Crypto] [PqVerify] [PqSign] [MiniscriptSatisfier]

omit [PqVerify] [PqSign] [MiniscriptSatisfier] in
def getInputUTXO (psbt : PartiallySignedTransaction) (inputIndex : Nat) : Option CTxOut := do
  let tx ← psbt.tx
  let txin ← tx.vin[inputIndex]?
  let input ← psbt.inputs[inputIndex]?
  input.getInputUTXO txin.prevout

omit [PqVerify] [PqSign] [MiniscriptSatisfier] in
def precomputePSBTData (psbt : PartiallySignedTransaction) (tx : CTransaction) :
    PrecomputedTransactionData :=
  match (List.range tx.vin.length).mapM psbt.getInputUTXO with
  | some utxos => .init tx utxos true
  | none => .init tx [] true

/-- How `FinalizePSBT` calls `SignPSBTInput`. -/
def finalizeRequest (txdata : PrecomputedTransactionData) (effectiveFlags : ScriptFlags)
    (input : PSBTInput) : PSBTInput.SignRequest where
  provider := .dummy
  txdata := some txdata
  sighash := input.sighashType
  finalize := true
  scriptVerifyFlags := effectiveFlags
  intent := .inspect

/-- The loop of `FinalizePSBT`, from the input at an index on. A failure does not end it. -/
def finalizeLoop (tx : CTransaction) (txdata : PrecomputedTransactionData)
    (effectiveFlags : ScriptFlags) : (i : Nat) → List PSBTInput → Bool × List PSBTInput
  | _, [] => (true, [])
  | i, input :: inputs =>
    if hindex : i < tx.vin.length then
      let (error, input, _) := (finalizeRequest txdata effectiveFlags input).signPSBTInput tx
        ⟨i, hindex⟩ input .empty
      let (complete, inputs) := finalizeLoop tx txdata effectiveFlags (i + 1) inputs
      (error = .ok && complete, input :: inputs)
    else (true, input :: inputs)

/-- `FinalizePSBT`. It is undefined without a transaction and for fewer inputs than the transaction
has. -/
def finalizePSBT (psbt : PartiallySignedTransaction) (scriptVerifyFlags : Option ScriptFlags) :
    Option (Bool × PartiallySignedTransaction) := do
  let tx ← psbt.tx
  guard (tx.vin.length ≤ psbt.inputs.length)
  let effectiveFlags := scriptVerifyFlags.getD .standard
  let (complete, inputs) :=
    finalizeLoop tx (psbt.precomputePSBTData tx) effectiveFlags 0 psbt.inputs
  return (complete, { psbt with inputs })

omit [Crypto] [PqVerify] [PqSign] [MiniscriptSatisfier] in
/-- An input of the transaction with the final fields of its records. -/
def extractInput (txin : CTxIn) (input : PSBTInput) : CTxIn :=
  { txin with scriptSig := input.finalScriptSig, scriptWitness := input.finalScriptWitness }

omit [Crypto] [PqVerify] [PqSign] [MiniscriptSatisfier] in
/-- The transaction with the final fields of all inputs. -/
def extract (tx : CTransaction) (inputs : List PSBTInput) : CTransaction :=
  { tx with vin := List.zipWith extractInput tx.vin inputs }

/-- `FinalizeAndExtractPSBT`: the extracted transaction, if every input is final. -/
def finalizeAndExtractPSBT (psbt : PartiallySignedTransaction)
    (scriptVerifyFlags : Option ScriptFlags) :
    Option (Option CTransaction × PartiallySignedTransaction) := do
  let (complete, psbt) ← psbt.finalizePSBT scriptVerifyFlags
  if !complete then return (none, psbt)
  let tx ← psbt.tx
  return (some (extract tx psbt.inputs), psbt)

variable {psbt after : PartiallySignedTransaction} {tx : CTransaction}
  {effectiveFlags : ScriptFlags}

omit [PqVerify] [PqSign] [MiniscriptSatisfier] in
lemma precomputePSBTData_eq {spent : Nat → CTxOut}
    (hspent : ∀ i < tx.vin.length, psbt.getInputUTXO i = some (spent i)) :
    psbt.precomputePSBTData tx = .init tx ((range tx.vin.length).map spent) true := by
  have hall : ∀ indexes : List Nat, (∀ i ∈ indexes, i < tx.vin.length) →
      indexes.mapM psbt.getInputUTXO = some (indexes.map spent) := by
    intro indexes
    induction indexes with
    | nil => simp
    | cons i indexes ih =>
      intro hbound
      rw [forall_mem_cons] at hbound
      simp [hspent i hbound.1, ih hbound.2]
  rw [precomputePSBTData, hall _ fun i hi => mem_range.1 hi]

variable {final : List PSBTInput}

lemma finalizeLoop_finalized {txdata : PrecomputedTransactionData} {inputs : List PSBTInput}
    {start : Nat}
    (hrun : finalizeLoop tx txdata effectiveFlags start inputs = (true, final)) (k : Nat)
    (hindex : start + k < tx.vin.length) (hk : k < inputs.length) :
    ∃ utxo out, final[k]? = some out ∧
      PSBTInput.Finalized tx ⟨start + k, hindex⟩ txdata effectiveFlags utxo inputs[k] out := by
  induction inputs generalizing start final k with
  | nil => exact absurd hk (Nat.not_lt_zero _)
  | cons input inputs ih =>
    have hstart : start < tx.vin.length := by omega
    rw [finalizeLoop, dif_pos hstart] at hrun
    generalize hloop : finalizeLoop tx txdata effectiveFlags (start + 1) inputs = rest at hrun
    obtain ⟨complete, restFinal⟩ := rest
    simp only [Prod.mk.injEq, Bool.and_eq_true, decide_eq_true_eq] at hrun
    obtain ⟨⟨herror, rfl⟩, rfl⟩ := hrun
    cases k with
    | zero =>
      obtain ⟨utxo, hfinalized⟩ := PSBTInput.SignRequest.signPSBTInput_finalized rfl rfl herror
      exact ⟨utxo, _, rfl, hfinalized⟩
    | succ k =>
      have hnext := ih hloop k (by omega) (Nat.lt_of_succ_lt_succ hk)
      simpa [Nat.add_right_comm, Nat.add_assoc] using hnext

section

omit [Crypto] [PqVerify] [PqSign] [MiniscriptSatisfier]

lemma unsigned_extract (hlength : tx.vin.length ≤ final.length) :
    (extract tx final).unsigned = tx.unsigned := by
  have hvin : (zipWith extractInput tx.vin final).map CTxIn.unsigned =
      tx.vin.map CTxIn.unsigned := by
    apply ext_getElem
    · simp [hlength]
    · simp [extractInput, CTxIn.unsigned]
  simp [CTransaction.unsigned, extract, hvin]

lemma extract_vin_get {out : PSBTInput} (i : Fin (extract tx final).vin.length)
    (hi : i.val < tx.vin.length)
    (hout : final[i.val]? = some out) :
    (extract tx final).vin.get i = extractInput tx.vin[i.val] out := by
  have hget := (List.getElem?_eq_some_iff.1 hout).2
  change (List.zipWith extractInput tx.vin final)[i.val] = _
  rw [getElem_zipWith, hget]

end

omit [PqSign] [MiniscriptSatisfier] in
lemma extract_valid {spentOutputs : List CTxOut} {utxo : CTxOut} {out : PSBTInput}
    (i : Fin (extract tx final).vin.length) (hi : i.val < tx.vin.length)
    (hlength : tx.vin.length ≤ final.length) (hout : final[i.val]? = some out)
    (hvalid : verifyScript effectiveFlags (PSBTInput.checkerFor tx ⟨i, hi⟩ utxo.nValue
      (some (.init tx spentOutputs true)) effectiveFlags).toChecker out.finalScriptSig
        utxo.scriptPubKey out.finalScriptWitness = .ok ())
    (force : Bool) :
    verifyScript effectiveFlags (PSBTInput.checkerFor (extract tx final) i utxo.nValue
        (some (.init (extract tx final) spentOutputs force)) effectiveFlags).toChecker
      ((extract tx final).vin.get i).scriptSig utxo.scriptPubKey
      ((extract tx final).vin.get i).scriptWitness = .ok () := by
  apply verifyScript_init
  have hunsigned := unsigned_extract hlength
  have hdata : init (extract tx final) spentOutputs true = .init tx spentOutputs true := by
    rw [← init_unsigned, hunsigned, init_unsigned]
  have hchecker :
      (PSBTInput.checkerFor (extract tx final) i utxo.nValue (some (.init tx spentOutputs true))
        effectiveFlags).toChecker =
      (PSBTInput.checkerFor tx ⟨i, hi⟩ utxo.nValue (some (.init tx spentOutputs true))
        effectiveFlags).toChecker :=
    toChecker_congr hunsigned rfl rfl rfl rfl
  rw [← hchecker] at hvalid
  have hinput : (extract tx final).vin[i] = extractInput tx.vin[i.val] out :=
    extract_vin_get i hi hout
  rw [hinput, hdata]
  exact hvalid

lemma finalizeAndExtractPSBT_eq {scriptVerifyFlags : Option ScriptFlags} {result : CTransaction}
    (hrun : psbt.finalizeAndExtractPSBT scriptVerifyFlags = some (some result, after)) :
    ∃ tx final, psbt.tx = some tx ∧ tx.vin.length ≤ psbt.inputs.length ∧
      finalizeLoop tx (psbt.precomputePSBTData tx) (scriptVerifyFlags.getD .standard) 0
        psbt.inputs = (true, final) ∧
      after = { psbt with inputs := final } ∧ result = extract tx final := by
  unfold finalizeAndExtractPSBT finalizePSBT at hrun
  cases htx : psbt.tx with
  | none => simp [htx] at hrun
  | some tx =>
    generalize hloop : finalizeLoop tx (psbt.precomputePSBTData tx)
      (scriptVerifyFlags.getD .standard) 0 psbt.inputs = run at hrun
    obtain ⟨complete, final⟩ := run
    by_cases hlength : tx.vin.length ≤ psbt.inputs.length
    · cases complete with
      | false => simp [htx, guard, hlength, hloop] at hrun
      | true =>
        simp only [htx, Option.bind_eq_bind, Option.bind_some, guard, hlength, if_true, hloop,
          Option.pure_def, Bool.not_true, Bool.false_eq_true, if_false, Option.some.injEq,
          Prod.mk.injEq] at hrun
        exact ⟨tx, final, rfl, hlength, hloop, hrun.2.symm, hrun.1.symm⟩
    · simp [htx, guard, hlength] at hrun

omit [PqSign] [MiniscriptSatisfier] in
/-- Every input of the transaction satisfies the script of the output recorded for it, before and
after the call, with the checker built from the transaction and all recorded outputs; and a recorded
output is the one of the full previous transaction where that is there. `force` is the way the
hashes of the checker are computed. -/
def SpendsRecorded (psbt after : PartiallySignedTransaction) (flags : ScriptFlags) (force : Bool)
    (result : CTransaction) : Prop :=
  ∃ spentOutputs : List CTxOut, spentOutputs.length = result.vin.length ∧
    ∀ i : Fin result.vin.length, ∃ utxo,
      spentOutputs[i.val]? = some utxo ∧ psbt.getInputUTXO i = some utxo ∧
      after.getInputUTXO i = some utxo ∧
      verifyScript flags
        (PSBTInput.checkerFor result i utxo.nValue (some (.init result spentOutputs force))
          flags).toChecker
        (result.vin.get i).scriptSig utxo.scriptPubKey (result.vin.get i).scriptWitness = .ok () ∧
      ∀ input previous, psbt.inputs[i.val]? = some input →
        input.nonWitnessUtxo = some previous →
        previous.getHash = (result.vin.get i).prevout.hash ∧
          previous.vout[(result.vin.get i).prevout.n.toNat]? = some utxo

/-- An extracted transaction spends the recorded outputs, whoever wrote the records. -/
theorem finalizeAndExtractPSBT_verified {scriptVerifyFlags : Option ScriptFlags}
    {result : CTransaction}
    (hrun : psbt.finalizeAndExtractPSBT scriptVerifyFlags = some (some result, after))
    (force : Bool) :
    SpendsRecorded psbt after (scriptVerifyFlags.getD .standard) force result := by
  obtain ⟨tx, final, htx, hlength, hloop, rfl, rfl⟩ := finalizeAndExtractPSBT_eq hrun
  have hfinal : ∀ k (hk : k < tx.vin.length), ∃ utxo out, final[k]? = some out ∧
      PSBTInput.Finalized tx ⟨k, hk⟩ (psbt.precomputePSBTData tx)
        (scriptVerifyFlags.getD .standard) utxo (psbt.inputs[k]) out := by
    intro k hk
    have hstep := finalizeLoop_finalized hloop k (by omega) (by omega)
    simpa using hstep
  have hvin : tx.vin.length ≤ final.length := by
    by_contra hshort
    obtain ⟨utxo, out, hout, -⟩ := hfinal final.length (by omega)
    simp at hout
  -- The outputs the hashes were computed with are those of the single inputs.
  let spent : Nat → CTxOut := fun k => (psbt.getInputUTXO k).getD nullTxOut
  have hrecorded : ∀ k (hk : k < tx.vin.length) utxo,
      (psbt.inputs[k]).getInputUTXO (tx.vin[k]).prevout = some utxo →
      psbt.getInputUTXO k = some utxo := by
    intro k hk utxo hutxo
    simpa [getInputUTXO, htx, hk, hlength.trans_lt' hk] using hutxo
  have hspent : ∀ k < tx.vin.length, psbt.getInputUTXO k = some (spent k) := by
    intro k hk
    obtain ⟨utxo, out, -, hfinalized⟩ := hfinal k hk
    have hutxo := hrecorded k hk utxo hfinalized.recorded
    simp [spent, hutxo]
  have hdata := precomputePSBTData_eq hspent
  refine ⟨(range tx.vin.length).map spent, by simp [extract, hvin], fun i => ?_⟩
  have hi : i.val < tx.vin.length := by
    have hlt := i.isLt
    simp only [extract, length_zipWith] at hlt
    omega
  obtain ⟨utxo, out, hout, hfinalized⟩ := hfinal i hi
  have hutxo := hrecorded i hi utxo hfinalized.recorded
  refine ⟨utxo, ?_, hutxo, ?_, ?_, ?_⟩
  · have hsame : spent i = utxo := by simp [spent, hutxo]
    simp [hi, hsame]
  · simpa [getInputUTXO, htx, hi, hout] using hfinalized.kept
  · have hvalid := hfinalized.valid
    rw [hdata] at hvalid
    exact extract_valid i hi hvin hout hvalid force
  · intro input previous hinput hprevious
    have hsame : psbt.inputs[i.val] = input := by
      rwa [getElem?_eq_getElem, Option.some.injEq] at hinput
    have hconsistent := PSBTInput.getInputUTXO_previous hfinalized.recorded (hsame ▸ hprevious)
    rw [extract_vin_get i hi hout]
    exact hconsistent

end PartiallySignedTransaction

/-- Parameters without keys: no signature is made or accepted. -/
@[reducible] def PqVerify.rejecting : PqVerify :=
  ⟨fun _ _ _ _ => false, fun _ _ _ => false, fun _ _ _ => false, fun _ _ _ =>
    false, fun _ _ _ => false⟩

@[reducible] def PqSign.refusing : PqSign := ⟨fun _ _ _ => none, fun _ _ _ => none⟩

@[reducible] def MiniscriptSatisfier.unsolved : MiniscriptSatisfier :=
  ⟨fun _ _ _ _ => return (false, [])⟩

namespace PartiallySignedTransaction

/-- A previous transaction with one output that anyone can spend. -/
def samplePrevious : CTransaction := ⟨[], [⟨7, [op1]⟩], 1, 0⟩

/-- Two inputs: one comes with its full previous transaction, the other one with a summary of a
witness output and a final witness from another party. -/
def sample : PartiallySignedTransaction :=
  letI := Crypto.digits
  { tx := some
      { vin := [⟨⟨samplePrevious.getHash, 0⟩, [], 0, []⟩, ⟨⟨5, 1⟩, [], 0, []⟩]
        vout := [⟨9, [op1]⟩]
        version := 2
        nLockTime := 0 }
    inputs :=
      [{ PSBTInput.empty with nonWitnessUtxo := some samplePrevious },
        { PSBTInput.empty with
          witnessUtxo :=
            ⟨3, getScriptForDestination (.witnessV0ScriptHash (witnessV0ScriptHash [op1]))⟩
          finalScriptWitness := [[op1]] }]
    outputs := [⟨[], [], ∅, ∅⟩]
    unknown := ∅
    version := none
    proprietary := ∅ }

theorem finalizeAndExtractPSBT_verified_sample : ∃ result after,
      @finalizeAndExtractPSBT Crypto.digits PqVerify.rejecting PqSign.refusing
        MiniscriptSatisfier.unsolved sample none = some (some result, after) ∧
      result.vin.length = 2 ∧
      @SpendsRecorded Crypto.digits PqVerify.rejecting sample after .standard false result := by
  let _ := Crypto.digits
  let _ := PqVerify.rejecting
  let _ := PqSign.refusing
  let _ := MiniscriptSatisfier.unsolved
  have hfinal : (sample.finalizeAndExtractPSBT none >>= Prod.fst).map (·.vin.length) = some 2 := by
    decide +kernel
  obtain ⟨result, hresult, hlength⟩ := Option.map_eq_some_iff.1 hfinal
  obtain ⟨⟨extracted, after⟩, hrun, rfl⟩ := Option.bind_eq_some_iff.1 hresult
  exact ⟨result, after, hrun, hlength, finalizeAndExtractPSBT_verified hrun false⟩

end PartiallySignedTransaction

end Tidecoin
