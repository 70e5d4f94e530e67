import Tidecoin.Lib.Overlay
import Tidecoin.Psbt

/-!
Combining partially signed transactions: `Merge` and `CombinePSBTs` of `psbt.cpp`. A PSBT is looked
at as a function from slots to the values they hold: one slot for each optional field and for each
key a map can have. Merging lays one such function over the other, after checks that cross the
slots: the previous outputs of an input have to be consistent and the origin records have to decode.

For PSBTs of one transaction that can be merged and agree, the slots of the combination are those of
its members, whatever their order.
-/

namespace Tidecoin

open Lib List Option

variable {psbt other : PartiallySignedTransaction} {input : PSBTInput} {index : Nat}

section

variable {κ : Type} [DecidableEq κ] {ν : Type}

lemma lookup_mergeMap (map other : AList fun _ : κ => ν) (key : κ) :
    (mergeMap map other).lookup key = (map.lookup key).or (other.lookup key) := by
  have hfold : ∀ (entries : List (Sigma fun _ : κ => ν)) (map : AList fun _ : κ => ν),
      (entries.foldl (fun merged entry => emplace merged entry.1 entry.2) map).lookup key =
        (map.lookup key).or (entries.dlookup key) := by
    intro entries
    induction entries with
    | nil => simp
    | cons entry entries ih =>
      intro map
      rw [foldl_cons, ih, lookup_emplace]
      obtain ⟨first, value⟩ := entry
      by_cases heq : key = first
      · subst heq
        cases map.lookup key <;> simp
      · have hrest : dlookup key (⟨first, value⟩ :: entries) = entries.dlookup key :=
          dlookup_cons_ne entries _ heq
        rw [hrest, if_neg heq, or_none]
  exact hfold other.entries map

end

namespace ProprietaryKey

/-- `identifier`, `subtype` and the data of the key. -/
def parts (key : ProprietaryKey) : Bytes × Nat × Bytes :=
  (parseProprietaryKey key.bytes).get key.parsed

/-- `PROPRIETARY_IDENTIFIER`. -/
def tidecoin : Bytes := "tidecoin".toList.map fun letter => UInt8.ofNat letter.toNat

/-- The key of a PQHD origin record, with the subtype `SUBTYPE_PQHD_ORIGIN`. -/
def isPQHDOrigin (key : ProprietaryKey) : Bool := key.parts.1 = tidecoin && key.parts.2.1 = 1

end ProprietaryKey

structure PQHDOrigin where
  pubkey : CPubKey
  seedId : Uint256
  pathHardened : List UInt32
deriving DecidableEq

/-- The value of an origin record: the seed and a hardened path of six components. -/
def readPQHDOrigin : Reader String (Uint256 × List UInt32) := do
  let seedId ← readUint256
  let pathLen ← readCompactSize
  Reader.check (pathLen = 6) "path length"
  let path ← Reader.many
    (do
      let elem ← readUint32
      Reader.check (elem &&& Pqhd.hardened ≠ 0) "hardened-only"
      return elem) pathLen
  return (seedId, path)

def CPubKey.isValidNonHybrid (pubkey : CPubKey) : Bool :=
  pubkey.isValid && (pubkey.vch.head? >>= schemeFromPrefix).isSome

def decodePQHDOrigin (key : ProprietaryKey) (value : Bytes) : Option PQHDOrigin :=
  let pubkey := CPubKey.set key.parts.2.2
  if !key.isPQHDOrigin then none
  else if !pubkey.isValidNonHybrid then none
  else match readPQHDOrigin.run value with
    | .error _ => none
    | .ok ((seedId, path), rest) =>
      if !rest.isEmpty || !Pqhd.validateV1LeafPath path then none
      else if pubkey.vch.head? ≠ path[2]?.map fun scheme => (Pqhd.masked scheme).toUInt8 then none
      else some ⟨pubkey, seedId, path⟩

/-- One side of `PQHDOriginsCompatible`: the records decode and do not contradict the others. -/
def originsCompatibleWith (records others : ProprietaryRecords) : Bool :=
  records.entries.all fun entry =>
    !entry.1.isPQHDOrigin ||
      (decodePQHDOrigin entry.1 entry.2).isSome && (others.lookup entry.1).all fun other =>
        other = entry.2

def pqhdOriginsCompatible (left right : ProprietaryRecords) : Bool :=
  originsCompatibleWith left right && originsCompatibleWith right left

/-- A field that is merged when it is empty. -/
def firstNonempty {α : Type} (field other : List α) : List α :=
  if field.isEmpty then other else field

namespace PSBTInput

def merge (input other : PSBTInput) : PSBTInput where
  sighashType := input.sighashType.or other.sighashType
  nonWitnessUtxo := input.nonWitnessUtxo.or other.nonWitnessUtxo
  witnessUtxo :=
    if input.witnessUtxo.isNull && !other.witnessUtxo.isNull then other.witnessUtxo
    else input.witnessUtxo
  partialSigs := mergeMap input.partialSigs other.partialSigs
  ripemd160Preimages := mergeMap input.ripemd160Preimages other.ripemd160Preimages
  sha256Preimages := mergeMap input.sha256Preimages other.sha256Preimages
  hash160Preimages := mergeMap input.hash160Preimages other.hash160Preimages
  hash256Preimages := mergeMap input.hash256Preimages other.hash256Preimages
  proprietary := mergeMap input.proprietary other.proprietary
  unknown := mergeMap input.unknown other.unknown
  redeemScript := firstNonempty input.redeemScript other.redeemScript
  witnessScript := firstNonempty input.witnessScript other.witnessScript
  finalScriptSig := firstNonempty input.finalScriptSig other.finalScriptSig
  finalScriptWitness := firstNonempty input.finalScriptWitness other.finalScriptWitness

/-- The records of the previous output that `Merge` checks to be consistent. -/
def combinedUtxo (left right : PSBTInput) : PSBTInput :=
  { PSBTInput.empty with
    nonWitnessUtxo := left.nonWitnessUtxo.or right.nonWitnessUtxo
    witnessUtxo := if left.witnessUtxo.isNull then right.witnessUtxo else left.witnessUtxo }

/-- The checks of `PartiallySignedTransaction::Merge` on an input. -/
def mergeable [Crypto] (left right : PSBTInput) (prevout : COutPoint) : Bool :=
  pqhdOriginsCompatible left.proprietary right.proprietary &&
    !(left.sighashType.isSome && right.sighashType.isSome && left.sighashType ≠ right.sighashType)
      &&
    left.isUTXOConsistent prevout && right.isUTXOConsistent prevout &&
    !(!left.witnessUtxo.isNull && !right.witnessUtxo.isNull && left.witnessUtxo ≠ right.witnessUtxo)
      &&
    (combinedUtxo left right).isUTXOConsistent prevout

end PSBTInput

def PSBTOutput.merge (output other : PSBTOutput) : PSBTOutput where
  proprietary := mergeMap output.proprietary other.proprietary
  unknown := mergeMap output.unknown other.unknown
  redeemScript := firstNonempty output.redeemScript other.redeemScript
  witnessScript := firstNonempty output.witnessScript other.witnessScript

namespace PartiallySignedTransaction

variable [Crypto]

/-- The checks `Merge` makes before it changes anything. Every input has an input of the transaction
beside it: reading and creating a PSBT give it one record for each. -/
def mergeable (psbt other : PartiallySignedTransaction) : Bool :=
  match psbt.tx, other.tx with
  | some tx, some otherTx =>
    tx.getHash = otherTx.getHash && psbt.inputs.length = other.inputs.length &&
      psbt.outputs.length = other.outputs.length &&
      pqhdOriginsCompatible psbt.proprietary other.proprietary &&
      ((psbt.inputs.zip other.inputs).zip tx.vin).all (fun entry =>
        entry.1.1.mergeable entry.1.2 entry.2.prevout) &&
      (psbt.outputs.zip other.outputs).all fun entry =>
        pqhdOriginsCompatible entry.1.proprietary entry.2.proprietary
  | _, _ => false

section

variable (psbt other : PartiallySignedTransaction)

omit [Crypto] in
/-- What `Merge` makes of the target once its checks have passed. The version stays. -/
def merged : PartiallySignedTransaction where
  tx := psbt.tx
  inputs := List.zipWith PSBTInput.merge psbt.inputs other.inputs
  outputs := List.zipWith PSBTOutput.merge psbt.outputs other.outputs
  unknown := mergeMap psbt.unknown other.unknown
  version := psbt.version
  proprietary := mergeMap psbt.proprietary other.proprietary

/-- `PartiallySignedTransaction::Merge`: whether it succeeded, and the target. -/
def merge : Bool × PartiallySignedTransaction :=
  if psbt.mergeable other then (true, psbt.merged other) else (false, psbt)

/-- A merge as a step of `CombinePSBTs`. -/
def mergeStep : Option PartiallySignedTransaction :=
  if (psbt.merge other).1 then some (psbt.merge other).2 else none

end

def combinePSBTs : List PartiallySignedTransaction → Option PartiallySignedTransaction
  | [] => none
  | first :: rest => do
      let merged ← first.mergeStep first
      rest.foldlM mergeStep merged

lemma merge_of_not_mergeable (hfailed : (psbt.merge other).1 = false) :
    (psbt.merge other).2 = psbt := by
  unfold merge at hfailed ⊢
  split at hfailed
  · cases hfailed
  · rename_i hmergeable
    rw [if_neg hmergeable]

lemma merge_fst (psbt other : PartiallySignedTransaction) :
    (psbt.merge other).1 = psbt.mergeable other := by
  unfold merge
  split <;> simp_all

lemma merge_snd (hmergeable : psbt.mergeable other) : (psbt.merge other).2 = psbt.merged other := by
  unfold merge
  rw [if_pos hmergeable]

lemma mergeStep_of_mergeable (hmergeable : psbt.mergeable other) :
    psbt.mergeStep other = some (psbt.merged other) := by
  unfold mergeStep
  rw [merge_fst, if_pos hmergeable, merge_snd hmergeable]

end PartiallySignedTransaction

/-! ### Slots -/

/-- A field that counts as set when it is not empty. -/
def ifNonempty {α : Type} (field : List α) : Option (List α) :=
  if field.isEmpty then none else some field

lemma ifNonempty_firstNonempty {α : Type} (field other : List α) :
    ifNonempty (firstNonempty field other) = (ifNonempty field).or (ifNonempty other) := by
  unfold firstNonempty ifNonempty
  cases field <;> simp

/-- The output if it is set. -/
def ifSet (txout : CTxOut) : Option CTxOut := if txout.isNull then none else some txout

lemma ifSet_merge (txout other : CTxOut) :
    ifSet (if txout.isNull && !other.isNull then other else txout) =
      (ifSet txout).or (ifSet other) := by
  unfold ifSet
  cases htxout : txout.isNull <;> cases hother : other.isNull <;> simp [htxout, hother]

/-- The places of an input that can hold a value. -/
inductive InputSlot where
  | sighashType
  | nonWitnessUtxo
  | witnessUtxo
  | redeemScript
  | witnessScript
  | finalScriptSig
  | finalScriptWitness
  | partialSigs (id : Uint160)
  | ripemd160Preimages (hash : Uint160)
  | sha256Preimages (hash : Uint256)
  | hash160Preimages (hash : Uint160)
  | hash256Preimages (hash : Uint256)
  | unknown (key : Bytes)
  | proprietary (key : ProprietaryKey)

def InputSlot.Value : InputSlot → Type
  | .sighashType => BitVec 32
  | .nonWitnessUtxo => CTransaction
  | .witnessUtxo => CTxOut
  | .finalScriptWitness => List Bytes
  | .partialSigs _ => CPubKey × Bytes
  | _ => Bytes

def PSBTInput.slots (input : PSBTInput) : (slot : InputSlot) → Option slot.Value
  | .sighashType => input.sighashType
  | .nonWitnessUtxo => input.nonWitnessUtxo
  | .witnessUtxo => ifSet input.witnessUtxo
  | .redeemScript => ifNonempty input.redeemScript
  | .witnessScript => ifNonempty input.witnessScript
  | .finalScriptSig => ifNonempty input.finalScriptSig
  | .finalScriptWitness => ifNonempty input.finalScriptWitness
  | .partialSigs id => input.partialSigs.lookup id
  | .ripemd160Preimages hash => input.ripemd160Preimages.lookup hash
  | .sha256Preimages hash => input.sha256Preimages.lookup hash
  | .hash160Preimages hash => input.hash160Preimages.lookup hash
  | .hash256Preimages hash => input.hash256Preimages.lookup hash
  | .unknown key => input.unknown.lookup key
  | .proprietary key => input.proprietary.lookup key

lemma PSBTInput.slots_merge (input other : PSBTInput) :
    (input.merge other).slots = overlay input.slots other.slots := by
  funext slot
  cases slot
  case witnessUtxo => exact ifSet_merge _ _
  case redeemScript | witnessScript | finalScriptSig | finalScriptWitness =>
    exact ifNonempty_firstNonempty _ _
  case sighashType | nonWitnessUtxo => rfl
  all_goals exact lookup_mergeMap _ _ _

/-- The places of an output that can hold a value. -/
inductive OutputSlot where
  | redeemScript
  | witnessScript
  | unknown (key : Bytes)
  | proprietary (key : ProprietaryKey)

def PSBTOutput.slots (output : PSBTOutput) : OutputSlot → Option Bytes
  | .redeemScript => ifNonempty output.redeemScript
  | .witnessScript => ifNonempty output.witnessScript
  | .unknown key => output.unknown.lookup key
  | .proprietary key => output.proprietary.lookup key

lemma PSBTOutput.slots_merge (output other : PSBTOutput) (slot : OutputSlot) :
    (output.merge other).slots slot = (output.slots slot).or (other.slots slot) := by
  cases slot
  case redeemScript | witnessScript => exact ifNonempty_firstNonempty _ _
  all_goals exact lookup_mergeMap _ _ _

/-- The places of a PSBT that can hold a value. The version is not among them: `Merge` leaves it. -/
inductive Slot where
  | unknown (key : Bytes)
  | proprietary (key : ProprietaryKey)
  | input (index : Nat) (slot : InputSlot)
  | output (index : Nat) (slot : OutputSlot)

def Slot.Value : Slot → Type
  | .input _ slot => slot.Value
  | _ => Bytes

def PartiallySignedTransaction.slots (psbt : PartiallySignedTransaction) :
    (slot : Slot) → Option slot.Value
  | .unknown key => psbt.unknown.lookup key
  | .proprietary key => psbt.proprietary.lookup key
  | .input index slot => psbt.inputs[index]?.bind fun input => input.slots slot
  | .output index slot => psbt.outputs[index]?.bind fun output => output.slots slot

lemma bind_zipWith {α β : Type} {merge : α → α → α} {read : α → Option β}
    (hread : ∀ left right, read (merge left right) = (read left).or (read right))
    {lefts rights : List α}
    (hlength : lefts.length = rights.length) (index : Nat) :
    (zipWith merge lefts rights)[index]?.bind read =
      (lefts[index]?.bind read).or (rights[index]?.bind read) := by
  rw [getElem?_zipWith]
  by_cases hindex : index < lefts.length
  · rw [getElem?_eq_getElem hindex, getElem?_eq_getElem (hlength ▸ hindex)]
    exact hread _ _
  · rw [getElem?_eq_none (by omega), getElem?_eq_none (by omega)]
    rfl

lemma PartiallySignedTransaction.slots_merged
    (hinputs : psbt.inputs.length = other.inputs.length)
    (houtputs : psbt.outputs.length = other.outputs.length) :
    (psbt.merged other).slots = overlay psbt.slots other.slots := by
  funext slot
  cases slot with
  | unknown key => exact lookup_mergeMap _ _ _
  | proprietary key => exact lookup_mergeMap _ _ _
  | input index slot =>
    exact bind_zipWith (fun left right => congrFun (left.slots_merge right) slot) hinputs index
  | output index slot =>
    exact bind_zipWith (fun left right => left.slots_merge right slot) houtputs index

/-! ### The checks as rules on recorded values -/

/-- An origin record decodes. -/
def OriginDecodes (key : ProprietaryKey) (value : Bytes) : Prop :=
  key.isPQHDOrigin = true → (decodePQHDOrigin key value).isSome = true

lemma pqhdOriginsCompatible_iff {left right : ProprietaryRecords} :
    pqhdOriginsCompatible left right ↔
      (∀ key value, left.lookup key = some value ∨ right.lookup key = some value →
        OriginDecodes key value) ∧
      ∀ key value other, key.isPQHDOrigin → left.lookup key = some value →
        right.lookup key = some other → value = other := by
  have hside : ∀ records others : ProprietaryRecords, originsCompatibleWith records others ↔
      ∀ key value, records.lookup key = some value → key.isPQHDOrigin →
        (decodePQHDOrigin key value).isSome ∧
          ∀ other, others.lookup key = some other → other = value := by
    intro records others
    simp only [originsCompatibleWith, List.all_eq_true, Bool.or_eq_true, Bool.not_eq_true',
      Bool.and_eq_true, Option.all_eq_true, decide_eq_true_eq]
    constructor
    · intro hall key value hlookup horigin
      have hentry := hall ⟨key, value⟩ (AList.mem_lookup_iff.1 hlookup)
      rcases hentry with hnone | hchecked
      · simp [horigin] at hnone
      · exact hchecked
    · intro hall entry hentry
      by_cases horigin : entry.1.isPQHDOrigin = true
      · exact .inr (hall entry.1 entry.2 (AList.mem_lookup_iff.2 hentry) horigin)
      · exact .inl (Bool.not_eq_true _ ▸ horigin)
  unfold pqhdOriginsCompatible
  rw [Bool.and_eq_true, hside, hside]
  constructor
  · rintro ⟨hleft, hright⟩
    constructor
    · rintro key value (hlookup | hlookup) horigin
      · exact (hleft key value hlookup horigin).1
      · exact (hright key value hlookup horigin).1
    · intro key value other horigin hvalue hother
      exact (hright key other hother horigin).2 value hvalue
  · rintro ⟨hdecodes, hsame⟩
    constructor
    · intro key value hlookup horigin
      exact ⟨hdecodes key value (.inl hlookup) horigin, fun other hother =>
        (hsame key value other horigin hlookup hother).symm⟩
    · intro key value hlookup horigin
      exact ⟨hdecodes key value (.inr hlookup) horigin, fun other hother =>
        hsame key other value horigin hother hlookup⟩

namespace PSBTInput

variable [Crypto]

variable {prevout : COutPoint}

lemma isUTXOConsistent_iff : input.isUTXOConsistent prevout ↔
      ∀ previous, input.nonWitnessUtxo = some previous →
        previous.getHash = prevout.hash ∧ ∃ txout, previous.vout[prevout.n.toNat]? = some txout ∧
          ∀ witness, ifSet input.witnessUtxo = some witness → witness = txout := by
  unfold isUTXOConsistent ifSet
  cases input.nonWitnessUtxo with
  | none => simp
  | some previous =>
    cases hout : previous.vout[prevout.n.toNat]? with
    | none => simp [hout]
    | some txout =>
      cases hnull : input.witnessUtxo.isNull with
      | true => simp [hout]
      | false => simp [hout, eq_comm (a := input.witnessUtxo)]

omit [Crypto] in
lemma ifSet_combinedUtxo (left right : PSBTInput) : ifSet (combinedUtxo left right).witnessUtxo =
      (ifSet left.witnessUtxo).or (ifSet right.witnessUtxo) := by
  unfold combinedUtxo ifSet
  cases hleft : left.witnessUtxo.isNull <;> simp [hleft]

lemma combinedUtxo_isUTXOConsistent (left right : PSBTInput) (prevout : COutPoint) :
    (combinedUtxo left right).isUTXOConsistent prevout =
      (left.merge right).isUTXOConsistent prevout := by
  have hwitness : ifSet (left.merge right).witnessUtxo =
      (ifSet left.witnessUtxo).or (ifSet right.witnessUtxo) := ifSet_merge _ _
  rw [Bool.eq_iff_iff, isUTXOConsistent_iff, isUTXOConsistent_iff, ifSet_combinedUtxo, hwitness]
  rfl

/-- How two values recorded for an input, or one twice, have to fit together. -/
def Rule (prevout : COutPoint) :
    (slot : InputSlot) → slot.Value → (other : InputSlot) → other.Value → Prop
  | .nonWitnessUtxo, previous, .witnessUtxo, txout =>
    (CTransaction.vout previous)[prevout.n.toNat]? = some txout
  | .nonWitnessUtxo, previous, .nonWitnessUtxo, _ =>
    CTransaction.getHash previous = prevout.hash ∧
      (CTransaction.vout previous)[prevout.n.toNat]?.isSome = true
  | .proprietary key, value, .proprietary _, _ => OriginDecodes key value
  | _, _, _, _ => True

variable {left right : PSBTInput}

lemma isUTXOConsistent_of_passes
    (hpasses : Passes (Rule prevout) left.slots right.slots)
    (hfrom : ∀ slot value, input.slots slot = some value → left.slots slot = some value ∨
      right.slots slot =
      some value) : input.isUTXOConsistent prevout := by
  rw [isUTXOConsistent_iff]
  intro previous hprevious
  have hfull := hfrom .nonWitnessUtxo previous hprevious
  obtain ⟨hhash, hsome⟩ := hpasses .nonWitnessUtxo previous .nonWitnessUtxo previous hfull hfull
  obtain ⟨txout, htxout⟩ := isSome_iff_exists.1 hsome
  refine ⟨hhash, txout, htxout, ?_⟩
  intro witness hwitness
  have hsame := hpasses .nonWitnessUtxo previous .witnessUtxo witness hfull
    (hfrom .witnessUtxo witness hwitness)
  exact some.inj (hsame.symm.trans htxout)

lemma mergeable_iff :
    left.mergeable right prevout ↔ pqhdOriginsCompatible left.proprietary right.proprietary ∧
      (∀ value other, left.sighashType = some value → right.sighashType = some other →
        value = other) ∧
      left.isUTXOConsistent prevout ∧ right.isUTXOConsistent prevout ∧
      (∀ value other, ifSet left.witnessUtxo = some value →
        ifSet right.witnessUtxo = some other → value = other) ∧
      (left.merge right).isUTXOConsistent prevout := by
  have hsighash : (!(left.sighashType.isSome && right.sighashType.isSome &&
      left.sighashType ≠ right.sighashType)) ↔
      ∀ value other, left.sighashType = some value → right.sighashType = some other →
        value = other := by
    cases left.sighashType <;> cases right.sighashType <;> simp
  have hwitness : (!(!left.witnessUtxo.isNull && !right.witnessUtxo.isNull &&
      left.witnessUtxo ≠ right.witnessUtxo)) ↔
      ∀ value other, ifSet left.witnessUtxo = some value →
        ifSet right.witnessUtxo = some other → value = other := by
    unfold ifSet
    cases left.witnessUtxo.isNull <;> cases right.witnessUtxo.isNull <;> simp
  unfold mergeable
  simp only [Bool.and_eq_true, hsighash, hwitness, combinedUtxo_isUTXOConsistent, and_assoc]

lemma mergeable_iff_passes (hagree : Agree left.slots right.slots) :
    left.mergeable right prevout ↔ Passes (Rule prevout) left.slots right.slots := by
  have hmerged : ∀ slot value, (left.merge right).slots slot = some value ↔
      left.slots slot = some value ∨ right.slots slot = some value := by
    intro slot value
    rw [slots_merge]
    exact hagree.overlay_eq_some
  rw [mergeable_iff, pqhdOriginsCompatible_iff]
  constructor
  · rintro ⟨⟨hdecodes, -⟩, -, -, -, -, hconsistent⟩ slot value other value' hvalue hvalue'
    have hutxo := isUTXOConsistent_iff.1 hconsistent
    unfold Rule
    split
    case h_1 previous txout =>
      obtain ⟨-, recorded, hrecorded, hsame⟩ := hutxo previous ((hmerged _ _).2 hvalue)
      rw [hsame txout ((hmerged .witnessUtxo _).2 hvalue')]
      exact hrecorded
    case h_2 previous _ =>
      obtain ⟨hhash, recorded, hrecorded, -⟩ := hutxo previous ((hmerged _ _).2 hvalue)
      exact ⟨hhash, isSome_iff_exists.2 ⟨recorded, hrecorded⟩⟩
    case h_3 key value _ _ => exact hdecodes key value hvalue
    case h_4 => trivial
  · intro hpasses
    refine ⟨⟨?_, ?_⟩, ?_, ?_, ?_, ?_, ?_⟩
    · intro key value hvalue
      exact hpasses (.proprietary key) value (.proprietary key) value hvalue hvalue
    · intro key value other _ hvalue hother
      exact hagree (.proprietary key) value other hvalue hother
    · exact hagree .sighashType
    · exact isUTXOConsistent_of_passes hpasses fun _ _ => .inl
    · exact isUTXOConsistent_of_passes hpasses fun _ _ => .inr
    · exact hagree .witnessUtxo
    · exact isUTXOConsistent_of_passes hpasses fun slot value => (hmerged slot value).1

end PSBTInput

namespace PartiallySignedTransaction

variable [Crypto]

/-- The rule on values of an input, and on origin records, for PSBTs of the transaction. -/
def Rule (tx : CTransaction) : (slot : Slot) → slot.Value → (other : Slot) → other.Value → Prop
  | .proprietary key, value, .proprietary _, _ => OriginDecodes key value
  | .input index slot, value, .input index' other, value' =>
    index = index' → ∀ txin, tx.vin[index]? = some txin →
      PSBTInput.Rule txin.prevout slot value other value'
  | .output _ (.proprietary key), value, .output _ (.proprietary _), _ => OriginDecodes key value
  | _, _, _, _ => True

lemma mergeable_iff :
    psbt.mergeable other ↔ ∃ tx otherTx, psbt.tx = some tx ∧ other.tx = some otherTx ∧
      tx.getHash = otherTx.getHash ∧ psbt.inputs.length = other.inputs.length ∧
      psbt.outputs.length = other.outputs.length ∧
      pqhdOriginsCompatible psbt.proprietary other.proprietary ∧
      (∀ left right txin (index : Nat), psbt.inputs[index]? = some left →
        other.inputs[index]? = some right → tx.vin[index]? = some txin →
          left.mergeable right txin.prevout) ∧
      ∀ left right (index : Nat), psbt.outputs[index]? = some left →
        other.outputs[index]? = some right →
          pqhdOriginsCompatible left.proprietary right.proprietary := by
  unfold mergeable
  cases psbt.tx with
  | none => simp
  | some tx =>
    cases other.tx with
    | none => simp
    | some otherTx =>
      simp only [Bool.and_eq_true, decide_eq_true_eq, List.all_eq_true, List.mem_iff_getElem?,
        List.getElem?_zip_eq_some, Prod.forall, and_assoc, forall_exists_index, and_imp]
      constructor
      · exact fun hchecked => ⟨tx, otherTx, rfl, rfl, hchecked⟩
      · rintro ⟨_, _, htx, hother, hchecked⟩
        cases htx
        cases hother
        exact hchecked

section

omit [Crypto]

/-- A value that a record in one of two lists of the same length has is one of the two records with
that index. -/
theorem records_of_bind {α β : Type} {lefts rights : List α} {read : α → Option β}
    {value : β} (hlength : lefts.length = rights.length)
    (hvalue : lefts[index]?.bind read = some value ∨ rights[index]?.bind read = some value) :
    ∃ left right, lefts[index]? = some left ∧ rights[index]? = some right ∧
      (read left = some value ∨ read right = some value) := by
  have hindex : index < lefts.length := by
    rcases hvalue with hvalue | hvalue
    · obtain ⟨record, hrecord, -⟩ := bind_eq_some_iff.1 hvalue
      exact (List.getElem?_eq_some_iff.1 hrecord).1
    · obtain ⟨record, hrecord, -⟩ := bind_eq_some_iff.1 hvalue
      rw [hlength]
      exact (List.getElem?_eq_some_iff.1 hrecord).1
  have hleft := getElem?_eq_getElem hindex
  have hright := getElem?_eq_getElem (hlength ▸ hindex : index < rights.length)
  rw [hleft, hright] at hvalue
  exact ⟨_, _, hleft, hright, hvalue⟩

lemma slots_input (hinput : psbt.inputs[index]? = some input)
    (slot : InputSlot) : psbt.slots (.input index slot) = input.slots slot := by
  rw [slots, hinput]
  rfl

lemma slots_output {output : PSBTOutput} (houtput : psbt.outputs[index]? = some output)
    (slot : OutputSlot) : psbt.slots (.output index slot) = output.slots slot := by
  rw [slots, houtput]
  rfl

end

variable {tx : CTransaction}

/-- For PSBTs of one transaction that agree, the checks are the rule, applied to the values of
both. -/
theorem mergeable_iff_passes (htx : psbt.tx = some tx) (hother : other.tx = some tx)
    (hagree : Agree psbt.slots other.slots) :
    psbt.mergeable other ↔ psbt.inputs.length = other.inputs.length ∧
      psbt.outputs.length = other.outputs.length ∧ Passes (Rule tx) psbt.slots other.slots := by
  have hagreeInput : ∀ {index : Nat} {left right}, psbt.inputs[index]? = some left →
      other.inputs[index]? = some right → Agree left.slots right.slots := by
    intro index left right hleft hright slot
    rw [← slots_input hleft, ← slots_input hright]
    exact hagree (.input index slot)
  rw [mergeable_iff]
  constructor
  · rintro ⟨_, _, htx', -, -, hinputs, houtputs, horigins, heach, heachOutput⟩
    cases htx.symm.trans htx'
    refine ⟨hinputs, houtputs, ?_⟩
    intro slot value slot' value' hvalue hvalue'
    unfold Rule
    split
    case h_1 key value _ _ => exact (pqhdOriginsCompatible_iff.1 horigins).1 key value hvalue
    case h_2 index slot value index' slot' value' =>
      intro hindex txin htxin
      subst hindex
      obtain ⟨left, right, hleft, hright, hfrom⟩ := records_of_bind hinputs hvalue
      obtain ⟨left', right', hleft', hright', hfrom'⟩ := records_of_bind hinputs hvalue'
      cases hleft.symm.trans hleft'
      cases hright.symm.trans hright'
      have hchecked := heach left right txin index hleft hright htxin
      exact (PSBTInput.mergeable_iff_passes (hagreeInput hleft hright)).1 hchecked slot value slot'
        value' hfrom hfrom'
    case h_3 index key value _ _ _ =>
      obtain ⟨left, right, hleft, hright, hfrom⟩ := records_of_bind houtputs hvalue
      exact (pqhdOriginsCompatible_iff.1 (heachOutput left right index hleft hright)).1 key
        value hfrom
    case h_4 => trivial
  · rintro ⟨hinputs, houtputs, hpasses⟩
    refine ⟨tx, tx, htx, hother, rfl, hinputs, houtputs, ?_, ?_, ?_⟩
    · apply pqhdOriginsCompatible_iff.2
      constructor
      · intro key value hvalue
        exact hpasses (.proprietary key) value (.proprietary key) value hvalue hvalue
      · intro key value value' _ hvalue hvalue'
        exact hagree (.proprietary key) value value' hvalue hvalue'
    · intro left right txin index hleft hright htxin
      apply (PSBTInput.mergeable_iff_passes (hagreeInput hleft hright)).2
      intro slot value slot' value' hvalue hvalue'
      rw [← slots_input hleft, ← slots_input hright] at hvalue hvalue'
      exact hpasses (.input index slot) value (.input index slot') value' hvalue hvalue' rfl
        txin htxin
    · intro left right index hleft hright
      have hslot :
          ∀ key, left.proprietary.lookup key = psbt.slots (.output index (.proprietary key)) ∧
          right.proprietary.lookup key = other.slots (.output index (.proprietary key)) :=
        fun key => ⟨(slots_output hleft (.proprietary key)).symm,
          (slots_output hright (.proprietary key)).symm⟩
      apply pqhdOriginsCompatible_iff.2
      constructor
      · intro key value hvalue
        rw [(hslot key).1, (hslot key).2] at hvalue
        exact hpasses (.output index (.proprietary key)) value (.output index (.proprietary key))
          value hvalue hvalue
      · intro key value value' _
        rw [(hslot key).1, (hslot key).2]
        exact hagree (.output index (.proprietary key)) value value'

/-! ### Combination -/

/-- PSBTs of one transaction, one of which can be merged into the other, that agree on everything
both of them record, the version included. -/
structure Compatible (psbt other : PartiallySignedTransaction) : Prop where
  tx : psbt.tx = other.tx
  merges : (psbt.merge other).1 = true
  agree : Agree psbt.slots other.slots
  version : ∀ value value', psbt.version = some value → other.version = some value' → value = value'

/-- The same transaction with the same records, whatever the version. -/
structure SameRecords (psbt other : PartiallySignedTransaction) : Prop where
  tx : psbt.tx = other.tx
  inputs : psbt.inputs.length = other.inputs.length
  outputs : psbt.outputs.length = other.outputs.length
  slots : psbt.slots = other.slots

section

variable (hcompatible : psbt.Compatible other)
include hcompatible

lemma Compatible.mergeable : psbt.mergeable other :=
  (merge_fst psbt other).symm.trans hcompatible.merges

lemma Compatible.passes (htx : psbt.tx = some tx) :
    other.tx = some tx ∧ psbt.inputs.length = other.inputs.length ∧
      psbt.outputs.length = other.outputs.length ∧ Passes (Rule tx) psbt.slots other.slots := by
  have hother := hcompatible.tx ▸ htx
  exact ⟨hother, (mergeable_iff_passes htx hother hcompatible.agree).1 hcompatible.mergeable⟩

lemma Compatible.symm : other.Compatible psbt := by
  obtain ⟨tx, -, htx, -⟩ := mergeable_iff.1 hcompatible.mergeable
  obtain ⟨hother, hinputs, houtputs, hpasses⟩ := hcompatible.passes htx
  refine ⟨hcompatible.tx.symm, ?_, hcompatible.agree.symm, ?_⟩
  · rw [merge_fst]
    exact (mergeable_iff_passes hother htx hcompatible.agree.symm).2
      ⟨hinputs.symm, houtputs.symm, hpasses.symm⟩
  · intro value value' hvalue hvalue'
    exact (hcompatible.version value' value hvalue' hvalue).symm

end

/-- What the loop of `CombinePSBTs` has made of the members merged so far. -/
structure Combines (members : List PartiallySignedTransaction) (first : PartiallySignedTransaction)
    (acc : PartiallySignedTransaction) : Prop where
  tx : acc.tx = first.tx
  inputs : acc.inputs.length = first.inputs.length
  outputs : acc.outputs.length = first.outputs.length
  version : acc.version = first.version
  covers : Covers (members.map slots) acc.slots

variable {first : PartiallySignedTransaction}

lemma Combines.step {members : List PartiallySignedTransaction}
    {acc next : PartiallySignedTransaction}
    (htx : first.tx = some tx) (hcombines : Combines members first acc)
    (hall : ∀ psbt ∈ first :: next :: members, ∀ other ∈ first :: next :: members,
      psbt.Compatible other) :
    acc.mergeStep next = some (acc.merged next) ∧
      Combines (next :: members) first (acc.merged next) := by
  have hnext : next ∈ first :: next :: members := by simp
  have hmembers : ∀ psbt ∈ next :: members, psbt ∈ first :: next :: members := by
    intro psbt hpsbt
    exact mem_cons_of_mem _ hpsbt
  obtain ⟨hnextTx, hinputs, houtputs, -⟩ := (hall first (by simp) next hnext).passes htx
  have hagree : ∀ function ∈ members.map slots, Agree function next.slots := by
    intro function hfunction
    obtain ⟨psbt, hpsbt, rfl⟩ := mem_map.1 hfunction
    exact (hall psbt (hmembers psbt (mem_cons_of_mem _ hpsbt)) next hnext).agree
  have hpasses : Passes (Rule tx) acc.slots next.slots := by
    refine hcombines.covers.passes ?_
    intro function hfunction function' hfunction'
    rw [← map_cons] at hfunction hfunction'
    obtain ⟨psbt, hpsbt, rfl⟩ := mem_map.1 hfunction
    obtain ⟨other, hother, rfl⟩ := mem_map.1 hfunction'
    obtain ⟨hpsbtTx, -⟩ := (hall first (by simp) psbt (hmembers psbt hpsbt)).passes htx
    exact ((hall psbt (hmembers psbt hpsbt) other (hmembers other hother)).passes hpsbtTx).2.2.2
  have hlengthIn : acc.inputs.length = next.inputs.length := hcombines.inputs.trans hinputs
  have hlengthOut : acc.outputs.length = next.outputs.length := hcombines.outputs.trans houtputs
  have hmergeable : acc.mergeable next :=
    (mergeable_iff_passes (hcombines.tx.trans htx) hnextTx (hcombines.covers.agree hagree)).2
      ⟨hlengthIn, hlengthOut, hpasses⟩
  refine ⟨mergeStep_of_mergeable hmergeable, hcombines.tx, ?_, ?_, hcombines.version, ?_⟩
  · simp [merged, ← hlengthIn, hcombines.inputs]
  · simp [merged, ← hlengthOut, hcombines.outputs]
  · rw [slots_merged hlengthIn hlengthOut]
    exact hcombines.covers.overlay hagree

lemma Combines.run (htx : first.tx = some tx) (rest : List PartiallySignedTransaction) :
    ∀ (members : List PartiallySignedTransaction) (acc : PartiallySignedTransaction),
      Combines members first acc →
      (∀ psbt ∈ first :: (members ++ rest), ∀ other ∈ first :: (members ++ rest),
        psbt.Compatible other) →
      ∃ out, rest.foldlM mergeStep acc = some out ∧
        Combines (rest.reverse ++ members) first out := by
  induction rest with
  | nil =>
    intro members acc hcombines _
    exact ⟨acc, rfl, hcombines⟩
  | cons next rest ih =>
    intro members acc hcombines hall
    have hsub : ∀ psbt ∈ first :: next :: members, psbt ∈ first :: (members ++ next :: rest) := by
      intro psbt hpsbt
      simp only [mem_cons, mem_append] at hpsbt ⊢
      tauto
    obtain ⟨hstep, hnext⟩ := hcombines.step htx fun psbt hpsbt other hother =>
      hall psbt (hsub psbt hpsbt) other (hsub other hother)
    have hsub' : ∀ psbt ∈ first :: (next :: members ++ rest),
        psbt ∈ first :: (members ++ next :: rest) := by
      intro psbt hpsbt
      simp only [mem_cons, mem_append] at hpsbt ⊢
      tauto
    obtain ⟨out, hrun, hout⟩ := ih (next :: members) (acc.merged next) hnext
      fun psbt hpsbt other hother => hall psbt (hsub' psbt hpsbt) other (hsub' other hother)
    refine ⟨out, ?_, ?_⟩
    · rw [foldlM_cons, hstep]
      exact hrun
    · simpa using hout

lemma combinePSBTs_covers {rest : List PartiallySignedTransaction}
    (hall : ∀ psbt ∈ first :: rest, ∀ other ∈ first :: rest, psbt.Compatible other) :
    ∃ out, combinePSBTs (first :: rest) = some out ∧ out.tx = first.tx ∧
      out.inputs.length = first.inputs.length ∧ out.outputs.length = first.outputs.length ∧
      out.version = first.version ∧ Covers ((rest.reverse ++ [first]).map slots) out.slots := by
  have hmergeable := (hall first mem_cons_self first mem_cons_self).mergeable
  obtain ⟨tx, -, htx, -⟩ := mergeable_iff.1 hmergeable
  -- Merging the first one into its copy changes none of its records.
  have hstart : Combines [first] first (first.merged first) := by
    refine ⟨rfl, by simp [merged], by simp [merged], rfl, ?_⟩
    rw [slots_merged rfl rfl, overlay_self]
    exact Covers.singleton
  obtain ⟨out, hrun, hout⟩ := Combines.run htx rest [first] _ hstart (by
    intro psbt hpsbt other hother
    exact hall psbt (by simpa using hpsbt) other (by simpa using hother))
  refine ⟨out, ?_, hout.tx, hout.inputs, hout.outputs, hout.version, hout.covers⟩
  change (first.mergeStep first).bind _ = _
  rw [mergeStep_of_mergeable hmergeable]
  exact hrun

end PartiallySignedTransaction

/-! ### What a merged PSBT records -/

lemma parseProprietaryKey_eq_some {key identifier keydata : Bytes} {subtype : Nat}
    (hparse : parseProprietaryKey key = some (identifier, subtype, keydata)) :
    key = 0xfc :: (serBytes identifier ++ (writeCompactSize subtype ++ keydata)) := by
  unfold parseProprietaryKey at hparse
  split at hparse
  case h_1 rest =>
    dsimp only at hparse
    split at hparse
    case h_1 hread =>
      obtain ⟨rfl, rfl, rfl⟩ := hparse
      simp only [Reader.run_bind_eq_ok, readBytes_codec _ _ _, readCompactSize_codec _ _ _,
        Reader.run_pure_eq_ok] at hread
      obtain ⟨_, _, ⟨-, rfl⟩, _, _, ⟨-, rfl⟩, hpair, rfl⟩ := hread
      obtain ⟨rfl, rfl⟩ := Prod.mk.inj hpair
      rfl
    case h_2 => cases hparse
  case h_2 => cases hparse

lemma ProprietaryKey.parts_injective : Function.Injective ProprietaryKey.parts := by
  have hbytes : ∀ key : ProprietaryKey, key.bytes = 0xfc ::
      (serBytes key.parts.1 ++ (writeCompactSize key.parts.2.1 ++ key.parts.2.2)) :=
    fun key => parseProprietaryKey_eq_some (some_get key.parsed).symm
  rintro ⟨left, hleft⟩ ⟨right, hright⟩ hparts
  have hsame : left = right := by
    have heq := hbytes ⟨left, hleft⟩
    rw [hparts, ← hbytes ⟨right, hright⟩] at heq
    exact heq
  subst hsame
  rfl

lemma CPubKey.vch_set {bytes : Bytes} (hvalid : (CPubKey.set bytes).isValid) :
    (CPubKey.set bytes).vch = bytes := by
  unfold set at hvalid ⊢
  split at hvalid
  case isTrue hsize => rw [dif_pos hsize]
  case isFalse => cases hvalid

lemma parts_of_decodePQHDOrigin {key : ProprietaryKey} {value : Bytes} {origin : PQHDOrigin}
    (hdecode : decodePQHDOrigin key value = some origin) :
    key.parts = (ProprietaryKey.tidecoin, 1, origin.pubkey.vch) := by
  unfold decodePQHDOrigin at hdecode
  dsimp only at hdecode
  split at hdecode
  · cases hdecode
  rename_i horigin
  split at hdecode
  · cases hdecode
  rename_i hpubkey
  split at hdecode
  · cases hdecode
  split at hdecode
  · cases hdecode
  split at hdecode
  · cases hdecode
  cases hdecode
  simp only [ProprietaryKey.isPQHDOrigin, Bool.not_eq_true', Bool.not_eq_false, Bool.and_eq_true,
    decide_eq_true_eq] at horigin
  simp only [CPubKey.isValidNonHybrid, Bool.not_eq_true', Bool.not_eq_false, Bool.and_eq_true]
    at hpubkey
  rw [CPubKey.vch_set hpubkey.1, ← horigin.1, ← horigin.2]

/-- The origin records decode, and no public key has two of them with different values. -/
structure SoundOrigins (records : ProprietaryRecords) : Prop where
  decodes : ∀ key value, records.lookup key = some value → OriginDecodes key value
  unique : ∀ key key' value value' origin origin', records.lookup key = some value →
    records.lookup key' = some value' → decodePQHDOrigin key value = some origin →
    decodePQHDOrigin key' value' = some origin' → origin.pubkey = origin'.pubkey → value = value'

lemma SoundOrigins.of_decodes {records : ProprietaryRecords}
    (hdecodes : ∀ key value, records.lookup key = some value → OriginDecodes key value) :
    SoundOrigins records := by
  refine ⟨hdecodes, ?_⟩
  intro key key' value value' origin origin' hvalue hvalue' hdecode hdecode' hpubkey
  have hkey : key = key' := by
    apply ProprietaryKey.parts_injective
    rw [parts_of_decodePQHDOrigin hdecode, parts_of_decodePQHDOrigin hdecode', hpubkey]
  subst hkey
  exact some.inj (hvalue.symm.trans hvalue')

lemma SoundOrigins.merge {left right : ProprietaryRecords}
    (hcompatible : pqhdOriginsCompatible left right) : SoundOrigins (mergeMap left right) := by
  apply SoundOrigins.of_decodes
  intro key value hlookup
  rw [lookup_mergeMap] at hlookup
  apply (pqhdOriginsCompatible_iff.1 hcompatible).1 key value
  cases hleft : left.lookup key with
  | none => exact .inr (by simpa [hleft] using hlookup)
  | some old => exact .inl (by simpa [hleft] using hlookup)

namespace PartiallySignedTransaction

variable [Crypto]

/-- There is a record for each input of the transaction, the previous outputs recorded for an input
are consistent with its prevout, and the origin records of every map are sound. -/
structure Sound (psbt : PartiallySignedTransaction) : Prop where
  sized : ∀ tx, psbt.tx = some tx → psbt.inputs.length = tx.vin.length
  consistent : ∀ tx (index : Nat) input txin, psbt.tx = some tx → psbt.inputs[index]? = some input →
    tx.vin[index]? = some txin → input.isUTXOConsistent txin.prevout = true
  origins : SoundOrigins psbt.proprietary
  inputOrigins : ∀ input ∈ psbt.inputs, SoundOrigins input.proprietary
  outputOrigins : ∀ output ∈ psbt.outputs, SoundOrigins output.proprietary

/-- The sighash types that two PSBTs declare for an input are those the third one has. -/
def DeclaredAgree (psbt other merged : PartiallySignedTransaction) : Prop :=
  ∀ (index : Nat) left right result declared, psbt.inputs[index]? = some left →
    other.inputs[index]? = some right → merged.inputs[index]? = some result →
    (left.sighashType = some declared ∨ right.sighashType = some declared) →
    result.sighashType = some declared

lemma merged_sound (hsound : psbt.Sound) (hmergeable : psbt.mergeable other) :
    (psbt.merged other).Sound ∧ DeclaredAgree psbt other (psbt.merged other) := by
  obtain ⟨tx, -, htx, -, -, hinputs, houtputs, horigins, heach, heachOutput⟩ :=
    mergeable_iff.1 hmergeable
  have hsized := hsound.sized tx htx
  -- Each input of the result is the merge of two that passed the checks.
  have hinput : ∀ (index : Nat) result, (psbt.merged other).inputs[index]? = some result →
      ∃ left right txin, psbt.inputs[index]? = some left ∧ other.inputs[index]? = some right ∧
        tx.vin[index]? = some txin ∧ left.mergeable right txin.prevout ∧
        result = left.merge right := by
    intro index result hresult
    simp only [merged, getElem?_zipWith_eq_some] at hresult
    obtain ⟨left, right, hleft, hright, rfl⟩ := hresult
    have hindex : index < tx.vin.length := by
      rw [← hsized]
      exact (List.getElem?_eq_some_iff.1 hleft).1
    have htxin := getElem?_eq_getElem hindex
    exact ⟨left, right, _, hleft, hright, htxin, heach left right _ index hleft hright htxin, rfl⟩
  refine ⟨⟨?_, ?_, .merge horigins, ?_, ?_⟩, ?_⟩
  · intro tx' htx'
    cases htx.symm.trans htx'
    simp [merged, ← hinputs, hsized]
  · intro tx' index result txin htx' hresult htxin
    cases htx.symm.trans htx'
    obtain ⟨left, right, txin', -, -, htxin', hchecked, rfl⟩ := hinput index result hresult
    cases htxin.symm.trans htxin'
    exact (PSBTInput.mergeable_iff.1 hchecked).2.2.2.2.2
  · intro result hresult
    obtain ⟨index, hindex⟩ := mem_iff_getElem?.1 hresult
    obtain ⟨left, right, txin, -, -, -, hchecked, rfl⟩ := hinput index result hindex
    exact SoundOrigins.merge (PSBTInput.mergeable_iff.1 hchecked).1
  · intro result hresult
    obtain ⟨index, hindex⟩ := mem_iff_getElem?.1 hresult
    simp only [merged, getElem?_zipWith_eq_some] at hindex
    obtain ⟨left, right, hleft, hright, rfl⟩ := hindex
    exact .merge (heachOutput left right index hleft hright)
  · intro index left right result declared hleft hright hresult hdeclared
    obtain ⟨left', right', txin, hleft', hright', -, hchecked, rfl⟩ := hinput index result hresult
    cases hleft.symm.trans hleft'
    cases hright.symm.trans hright'
    have hagree := (PSBTInput.mergeable_iff.1 hchecked).2.1
    change left.sighashType.or right.sighashType = some declared
    cases hleftType : left.sighashType with
    | none => simpa [hleftType] using hdeclared
    | some value =>
      rcases hdeclared with hdeclared | hdeclared
      · exact hleftType.symm.trans hdeclared
      · exact congrArg some (hagree value declared hleftType hdeclared)

lemma sound_of_mergeable_self
    (hsized : ∀ tx, psbt.tx = some tx → psbt.inputs.length = tx.vin.length)
    (hmergeable : psbt.mergeable psbt) : psbt.Sound := by
  obtain ⟨tx, -, htx, -, -, -, -, horigins, heach, heachOutput⟩ := mergeable_iff.1 hmergeable
  have hsound : ∀ records, pqhdOriginsCompatible records records → SoundOrigins records := by
    intro records hrecords
    apply SoundOrigins.of_decodes
    intro key value hvalue
    exact (pqhdOriginsCompatible_iff.1 hrecords).1 key value (.inl hvalue)
  refine ⟨hsized, ?_, hsound _ horigins, ?_, ?_⟩
  · intro tx' index input txin htx' hinput htxin
    cases htx.symm.trans htx'
    exact (PSBTInput.mergeable_iff.1 (heach input input txin index hinput hinput htxin)).2.2.1
  · intro input hmem
    obtain ⟨index, hinput⟩ := mem_iff_getElem?.1 hmem
    have hindex : index < tx.vin.length := by
      rw [← hsized tx htx]
      exact (List.getElem?_eq_some_iff.1 hinput).1
    have hchecked := heach input input _ index hinput hinput (getElem?_eq_getElem hindex)
    exact hsound _ (PSBTInput.mergeable_iff.1 hchecked).1
  · intro output hmem
    obtain ⟨index, houtput⟩ := mem_iff_getElem?.1 hmem
    exact hsound _ (heachOutput output output index houtput houtput)

/-- The laws of combination. The result for compatible PSBTs depends on which PSBTs are in the list,
up to the version, which is the one of the first; a merge that fails changes nothing; a merge that
succeeds keeps what is recorded sound. -/
theorem combinePSBTs_laws :
    (∀ psbts : List PartiallySignedTransaction, psbts ≠ [] →
      (∀ psbt ∈ psbts, psbt.Compatible psbt) →
      psbts.Pairwise Compatible →
      ∃ out, combinePSBTs psbts = some out ∧ out.version = psbts.head?.bind version ∧
        ∀ others : List PartiallySignedTransaction, (∀ psbt, psbt ∈ others ↔ psbt ∈ psbts) →
          ∃ out', combinePSBTs others = some out' ∧ out.SameRecords out' ∧
            out'.version = others.head?.bind version) ∧
    (∀ psbt other : PartiallySignedTransaction, (psbt.merge other).1 = false →
      (psbt.merge other).2 = psbt) ∧
    ∀ psbt other : PartiallySignedTransaction, psbt.Sound → other.Sound →
      (psbt.merge other).1 = true →
      (psbt.merge other).2.Sound ∧ DeclaredAgree psbt other (psbt.merge other).2 := by
  refine ⟨?_, fun _ _ => merge_of_not_mergeable, ?_⟩
  · intro psbts hnonempty hself hpairwise
    have hall : ∀ psbt ∈ psbts, ∀ other ∈ psbts, psbt.Compatible other := by
      intro psbt hpsbt other hother
      have hsymm : Std.Symm (Compatible : PartiallySignedTransaction → _ → Prop) :=
        ⟨fun _ _ => .symm⟩
      exact Pairwise.forall_of_forall hself hpairwise hpsbt hother
    obtain ⟨first, rest, rfl⟩ := exists_cons_of_ne_nil hnonempty
    obtain ⟨out, hout, htx, hinputs, houtputs, hversion, hcovers⟩ := combinePSBTs_covers hall
    refine ⟨out, hout, hversion, ?_⟩
    intro others hmembers
    have hfirst : first ∈ others := (hmembers first).2 mem_cons_self
    obtain ⟨first', rest', rfl⟩ := exists_cons_of_ne_nil (ne_nil_of_mem hfirst)
    obtain ⟨out', hout', htx', hinputs', houtputs', hversion', hcovers'⟩ :=
      combinePSBTs_covers fun psbt hpsbt other hother =>
        hall psbt ((hmembers psbt).1 hpsbt) other ((hmembers other).1 hother)
    have hpair := hall first mem_cons_self first' ((hmembers first').1 mem_cons_self)
    obtain ⟨-, -, -, -, -, hlengthIn, hlengthOut, -⟩ := mergeable_iff.1 hpair.mergeable
    refine ⟨out', hout', ⟨?_, ?_, ?_, ?_⟩, hversion'⟩
    · rw [htx, htx', hpair.tx]
    · rw [hinputs, hinputs', hlengthIn]
    · rw [houtputs, houtputs', hlengthOut]
    · apply hcovers.unique hcovers'
      intro function
      have hsame : ∀ psbt, psbt ∈ rest.reverse ++ [first] ↔ psbt ∈ rest'.reverse ++ [first'] := by
        intro psbt
        have hiff := hmembers psbt
        simp only [mem_cons, mem_append, mem_reverse, not_mem_nil, or_false] at hiff ⊢
        tauto
      simp only [List.mem_map, hsame]
  · intro psbt other hsound _ hmerged
    rw [merge_fst] at hmerged
    rw [merge_snd hmerged]
    exact merged_sound hsound hmerged

omit [Crypto]

/-- The sample, with a version or without, and with other global records. -/
def sampleWith (version : Option UInt32) (unknown : AList fun _ : Bytes => Bytes) :
    PartiallySignedTransaction :=
  { sample with
    version := version
    unknown := unknown }

lemma sampleWith_compatible {version other : Option UInt32}
    {unknown unknown' : AList fun _ : Bytes => Bytes}
    (hversion : ∀ value value', version = some value → other = some value' → value = value')
    (hunknown : ∀ key value value', unknown.lookup key = some value →
      unknown'.lookup key = some value' → value = value') :
    @Compatible Crypto.digits (sampleWith version unknown) (sampleWith other unknown') := by
  let _ := Crypto.digits
  refine ⟨rfl, ?_, ?_, hversion⟩
  · -- The checks look at the inputs and outputs only.
    have hsame : (sampleWith version unknown).mergeable (sampleWith other unknown') =
        sample.mergeable sample :=
      rfl
    rw [merge_fst, hsame]
    decide +kernel
  · intro slot value value' hvalue hvalue'
    cases slot with
    | unknown key => exact hunknown key value value' hvalue hvalue'
    | proprietary | input | output => exact some.inj (hvalue.symm.trans hvalue')

/-- The sample with a version. -/
def versioned : PartiallySignedTransaction := sampleWith (some 0) ∅

/-- The sample without one, and with a record. -/
def extended : PartiallySignedTransaction := sampleWith none (AList.singleton [7] [8])

lemma samples_compatible : @Compatible Crypto.digits versioned versioned ∧
    @Compatible Crypto.digits extended extended ∧ @Compatible Crypto.digits versioned extended := by
  refine ⟨sampleWith_compatible ?_ nofun, sampleWith_compatible nofun ?_,
    sampleWith_compatible nofun nofun⟩
  · exact fun _ _ hvalue hother => some.inj (hvalue.symm.trans hother)
  · exact fun _ _ _ hvalue hother => some.inj (hvalue.symm.trans hother)

/-- An explicit version is kept or lost depending on which PSBT is the first, and there is nothing
to return for no PSBT at all. -/
theorem combinePSBTs_version_order :
    (∃ psbt other : PartiallySignedTransaction, @Compatible Crypto.digits psbt psbt ∧
      @Compatible Crypto.digits other other ∧ @Compatible Crypto.digits psbt other ∧
      (@combinePSBTs Crypto.digits [psbt, other]).map version ≠
        (@combinePSBTs Crypto.digits [other, psbt]).map version) ∧
    @combinePSBTs Crypto.digits [] = none := by
  obtain ⟨hfirst, hsecond, hboth⟩ := samples_compatible
  refine ⟨⟨versioned, extended, hfirst, hsecond, hboth, ?_⟩, rfl⟩
  decide +kernel

theorem combinePSBTs_laws_sample :
    (∃ out out', @combinePSBTs Crypto.digits [versioned, extended] = some out ∧
      @combinePSBTs Crypto.digits [extended, versioned] = some out' ∧ out.version = some 0 ∧
      SameRecords out out') ∧
    (@merge Crypto.digits sample { sample with tx := none }).2 = sample ∧
    @Sound Crypto.digits (@merge Crypto.digits sample sample).2 := by
  let _ := Crypto.digits
  obtain ⟨hfirst, hsecond, hboth⟩ := samples_compatible
  obtain ⟨hcombine, hfailed, hsucceeded⟩ := combinePSBTs_laws
  obtain ⟨out, hout, hversion, hothers⟩ := hcombine [versioned, extended]
    (by simp) (by simp [hfirst, hsecond]) (by simp [hboth])
  obtain ⟨out', hout', hsame, -⟩ := hothers [extended, versioned] (by simp [or_comm])
  have hmergeable : sample.mergeable sample := by decide +kernel
  have hsound : sample.Sound := by
    apply sound_of_mergeable_self _ hmergeable
    rintro tx ⟨⟩
    rfl
  refine ⟨⟨out, out', hout, hout', hversion, hsame⟩, hfailed _ _ (by rfl), ?_⟩
  exact (hsucceeded sample sample hsound hsound ((merge_fst _ _).trans hmergeable)).1

end PartiallySignedTransaction

end Tidecoin
