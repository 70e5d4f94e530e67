import Tidecoin.Primitives
import Tidecoin.Lib.Except
import Mathlib.Data.List.AList

/-!
Compact blocks: `blockencodings.cpp` with the short ids of `crypto/siphash.cpp`, and the ring of
extra transactions that `net_processing.cpp` keeps for reconstructing them. `InitData` looks for
the announced short ids first in the mempool and then in the ring. The ring is allocated at its full
size when the first transaction is put into it; until it has gone round once its other slots hold a
null pointer under the zero hash.
-/

namespace Tidecoin

open Lib List

/-- The four words of a SipHash state. -/
structure SipState where
  v0 : BitVec 64
  v1 : BitVec 64
  v2 : BitVec 64
  v3 : BitVec 64

namespace SipState

/-- `SIPROUND`. -/
def round (state : SipState) : SipState :=
  let v0 := state.v0 + state.v1
  let v1 := state.v1.rotateLeft 13 ^^^ v0
  let v0 := v0.rotateLeft 32
  let v2 := state.v2 + state.v3
  let v3 := state.v3.rotateLeft 16 ^^^ v2
  let v0 := v0 + v3
  let v3 := v3.rotateLeft 21 ^^^ v0
  let v2 := v2 + v1
  let v1 := v1.rotateLeft 17 ^^^ v2
  let v2 := v2.rotateLeft 32
  ⟨v0, v1, v2, v3⟩

/-- One word of input. -/
def absorb (state : SipState) (d : BitVec 64) : SipState :=
  let mixed := { state with v3 := state.v3 ^^^ d }.round.round
  { mixed with v0 := mixed.v0 ^^^ d }

end SipState

def Uint256.getUint64 (blob : Uint256) (pos : Nat) : BitVec 64 := blob.extractLsb' (64 * pos) 64

def sipHashUint256 (k0 k1 : BitVec 64) (val : Uint256) : BitVec 64 :=
  let state : SipState :=
    ⟨0x736f6d6570736575 ^^^ k0, 0x646f72616e646f6d ^^^ k1, 0x6c7967656e657261 ^^^ k0,
      0x7465646279746573 ^^^ k1⟩
  let state := (((state.absorb (val.getUint64 0)).absorb (val.getUint64 1)).absorb
    (val.getUint64 2)).absorb (val.getUint64 3)
  let state := state.absorb (4 <<< 59)
  let state := { state with v2 := state.v2 ^^^ 0xff }.round.round.round.round
  state.v0 ^^^ state.v1 ^^^ state.v2 ^^^ state.v3

def CTransaction.isNull (tx : CTransaction) : Bool := tx.vin.isEmpty && tx.vout.isEmpty

def CBlockHeader.isNull (header : CBlockHeader) : Bool := header.nBits = 0

/-- A transaction sent with the message; the index counts from the previous one. -/
structure PrefilledTransaction where
  index : UInt16
  tx : CTransaction
deriving DecidableEq, Repr

/-- `CBlockHeaderAndShortTxIDs`, as read from a message: the positions fit into 16 bits. -/
structure CBlockHeaderAndShortTxIDs where
  header : CBlockHeader
  nonce : BitVec 64
  shorttxids : List (BitVec 64)
  prefilledtxn : List PrefilledTransaction
  blockTxCountLe : shorttxids.length + prefilledtxn.length ≤ 65535

inductive ReadStatus where
  | ok
  | invalid
  | failed
deriving DecidableEq, Repr

/-- The local enumeration of `InitData`: where the transaction of a position comes from. -/
inductive TxSource where
  | none
  | mempool
  | extra
  | collided
deriving DecidableEq, Repr

/-- A position with this source counts as found. -/
def TxSource.found : TxSource → Bool
  | .mempool | .extra => true
  | .none | .collided => false

/-- Undefined behaviour of the C++ code. -/
inductive Fault where
  | nullDereference
  | outOfRange
deriving DecidableEq, Repr

/-- `PartiallyDownloadedBlock`, with null pointers for the transactions that are not available. -/
structure PartiallyDownloadedBlock where
  header : CBlockHeader
  txnAvailable : List (Option CTransaction)
  prefilledCount : Nat
  mempoolCount : Nat
  extraCount : Nat
deriving DecidableEq, Repr

/-- The constructor. -/
def PartiallyDownloadedBlock.new : PartiallyDownloadedBlock :=
  ⟨⟨CPureBlockHeader.null, none⟩, [], 0, 0, 0⟩

namespace CBlockHeaderAndShortTxIDs

def blockTxCount (cmpctblock : CBlockHeaderAndShortTxIDs) : Nat :=
  cmpctblock.shorttxids.length + cmpctblock.prefilledtxn.length

variable [Crypto]

/-- `FillShortTxIDSelector`: the hash the two keys are taken from. A header that was read can be
written. -/
def shortTxIdHash (cmpctblock : CBlockHeaderAndShortTxIDs) : Uint256 :=
  Uint256.ofBytes (Crypto.sha256 (cmpctblock.header.serialize.getD [] ++
    natToLE 8 cmpctblock.nonce.toNat))

def getShortID (cmpctblock : CBlockHeaderAndShortTxIDs) (wtxid : Uint256) : BitVec 64 :=
  sipHashUint256 (cmpctblock.shortTxIdHash.getUint64 0) (cmpctblock.shortTxIdHash.getUint64 1)
    wtxid &&& 0xffffffffffff

end CBlockHeaderAndShortTxIDs

/-- The first loop of `InitData`: put the prefilled transactions into their positions. The flag is
false when the loop returns `READ_STATUS_INVALID`. -/
def placePrefilled (shortCount : Nat) :
    List PrefilledTransaction → (i : Nat) → (lastprefilledindex : Int) →
      (txnAvailable : List (Option CTransaction)) → Bool × List (Option CTransaction)
  | [], _, _, txnAvailable => (true, txnAvailable)
  | prefilled :: rest, i, lastprefilledindex, txnAvailable =>
    if prefilled.tx.isNull then (false, txnAvailable)
    else
      let lastprefilledindex := lastprefilledindex + (prefilled.index.toNat + 1)
      if lastprefilledindex > 65535 then (false, txnAvailable)
      else if lastprefilledindex.toNat > shortCount + i then (false, txnAvailable)
      else placePrefilled shortCount rest (i + 1) lastprefilledindex
        (txnAvailable.set lastprefilledindex.toNat (some prefilled.tx))

/-- The inner loop of the second one: the first position, among the given ones, without a
transaction. -/
def firstMissing : List (Option CTransaction) → (position : Nat) → Except Fault Nat
  | [], _ => .error .outOfRange
  | none :: _, position => .ok position
  | some _ :: rest, position => firstMissing rest (position + 1)

/-- The map from short ids to positions. -/
abbrev ShortIdMap := AList fun _ : BitVec 64 => Nat

/-- The second loop: map each short id to its position. The buckets of the hash table are a
parameter: `bucket_size` is the size of the bucket of an id in a table of the given ids. No map
means `READ_STATUS_FAILED`. -/
def mapShortIds (bucketSize : List (BitVec 64) → BitVec 64 → Nat)
    (txnAvailable : List (Option CTransaction)) :
    List (BitVec 64) → (i indexOffset : Nat) → ShortIdMap → Except Fault (Option ShortIdMap)
  | [], _, _, shorttxids => .ok (some shorttxids)
  | shortid :: rest, i, indexOffset, shorttxids => do
      let position ← firstMissing (txnAvailable.drop (i + indexOffset)) (i + indexOffset)
      let shorttxids := shorttxids.insert shortid position
      if bucketSize shorttxids.keys shortid > 12 then return none
      else mapShortIds bucketSize txnAvailable rest (i + 1) (position - i) shorttxids

/-- The variables of the two scans. -/
structure Scan where
  txnAvailable : List (Option CTransaction)
  txSource : List TxSource
  mempoolCount : Nat
  extraCount : Nat

namespace Scan

section

variable (scan : Scan) (position : Nat)

def source : TxSource := scan.txSource.getD position .none

def available : Option CTransaction := scan.txnAvailable.getD position none

/-- A mempool transaction has the short id of the position. -/
def matchMempool (tx : CTransaction) : Scan :=
  match scan.source position with
  | .none =>
    { scan with
      txnAvailable := scan.txnAvailable.set position (some tx)
      txSource := scan.txSource.set position .mempool
      mempoolCount := scan.mempoolCount + 1 }
  | .collided => scan
  | .mempool | .extra =>
    { scan with
      txnAvailable := scan.txnAvailable.set position none
      txSource := scan.txSource.set position .collided
      mempoolCount := scan.mempoolCount - 1 }

end

variable [Crypto]

section

variable (scan : Scan) (position : Nat) (extra : Option CTransaction)

/-- The position is taken: it is given up if the slot of the ring holds another transaction. Both
are asked for their witness hash, which a null pointer does not have. -/
def compareExtra : Except Fault Scan :=
  match scan.available position, extra with
  | some held, some tx =>
    if held.getWitnessHash ≠ tx.getWitnessHash then .ok
      { txnAvailable := scan.txnAvailable.set position none
        txSource := scan.txSource.set position .collided
        mempoolCount := scan.mempoolCount - 1
        extraCount := scan.extraCount - if scan.source position = .extra then 1 else 0 }
    else .ok scan
  | _, _ => .error .nullDereference

/-- A slot of the ring has the short id of the position. -/
def matchExtra : Except Fault Scan :=
  match scan.source position with
  | .none => .ok
      { txnAvailable := scan.txnAvailable.set position extra
        txSource := scan.txSource.set position .extra
        mempoolCount := scan.mempoolCount + 1
        extraCount := scan.extraCount + 1 }
  | .collided => .ok scan
  | .mempool | .extra => scan.compareExtra position extra

end

/-- The body of the loop over the mempool. -/
def mempoolStep (cmpctblock : CBlockHeaderAndShortTxIDs) (shorttxids : ShortIdMap)
    (tx : CTransaction) (scan : Scan) : Scan :=
  match shorttxids.lookup (cmpctblock.getShortID tx.getWitnessHash) with
  | some position => scan.matchMempool position tx
  | none => scan

/-- The loop over the mempool, which stops early when everything was found. -/
def scanMempool (cmpctblock : CBlockHeaderAndShortTxIDs) (shorttxids : ShortIdMap) :
    List CTransaction → Scan → Scan
  | [], scan => scan
  | tx :: pool, scan =>
    let scan := scan.mempoolStep cmpctblock shorttxids tx
    if scan.mempoolCount = shorttxids.entries.length then scan
    else scanMempool cmpctblock shorttxids pool scan

/-- The body of the loop over the ring. -/
def extraStep (cmpctblock : CBlockHeaderAndShortTxIDs) (shorttxids : ShortIdMap)
    (slot : Uint256 × Option CTransaction) (scan : Scan) : Except Fault Scan :=
  match shorttxids.lookup (cmpctblock.getShortID slot.1) with
  | some position => scan.matchExtra position slot.2
  | none => .ok scan

/-- The loop over the ring. -/
def scanExtra (cmpctblock : CBlockHeaderAndShortTxIDs) (shorttxids : ShortIdMap) :
    List (Uint256 × Option CTransaction) → Scan → Except Fault Scan
  | [], scan => .ok scan
  | slot :: extraTxn, scan => do
      let scan ← scan.extraStep cmpctblock shorttxids slot
      if scan.mempoolCount = shorttxids.entries.length then return scan
      else scanExtra cmpctblock shorttxids extraTxn scan

end Scan

/-- What `InitData` returns, with the object it leaves and its table of sources. -/
structure InitResult where
  status : ReadStatus
  block : PartiallyDownloadedBlock
  txSource : List TxSource
deriving DecidableEq, Repr

namespace PartiallyDownloadedBlock

/-- `InitData` up to the scans: the object and the map of the short ids, or an early return. -/
def prepare (bucketSize : List (BitVec 64) → BitVec 64 → Nat) (self : PartiallyDownloadedBlock)
    (cmpctblock : CBlockHeaderAndShortTxIDs) :
    Except Fault (PartiallyDownloadedBlock × (ReadStatus ⊕ ShortIdMap)) :=
  if cmpctblock.header.isNull ∨ (cmpctblock.shorttxids = [] ∧ cmpctblock.prefilledtxn.isEmpty) then
    .ok (self, .inl .invalid)
  else if cmpctblock.blockTxCount > 6000000 / 40 then .ok (self, .inl .invalid)
  else if !self.header.isNull ∨ self.txnAvailable.length ≠ 0 then .ok (self, .inl .invalid)
  else
    let (placed, txnAvailable) := placePrefilled cmpctblock.shorttxids.length
      cmpctblock.prefilledtxn 0 (-1) (List.replicate cmpctblock.blockTxCount none)
    let block := { self with header := cmpctblock.header, txnAvailable }
    if !placed then .ok (block, .inl .invalid)
    else do
      let block := { block with prefilledCount := cmpctblock.prefilledtxn.length }
      match ← mapShortIds bucketSize txnAvailable cmpctblock.shorttxids 0 0 ∅ with
      | none => return (block, .inl .failed)
      | some shorttxids =>
        if shorttxids.entries.length ≠ cmpctblock.shorttxids.length then
          return (block, .inl .failed)
        else return (block, .inr shorttxids)

/-- The scans start with every source unknown. -/
def startScan (block : PartiallyDownloadedBlock) : Scan where
  txnAvailable := block.txnAvailable
  txSource := List.replicate block.txnAvailable.length .none
  mempoolCount := block.mempoolCount
  extraCount := block.extraCount

variable [Crypto]

/-- `InitData`, for the mempool in the order of `txns_randomized`. -/
def initData (bucketSize : List (BitVec 64) → BitVec 64 → Nat) (self : PartiallyDownloadedBlock)
    (cmpctblock : CBlockHeaderAndShortTxIDs) (pool : List CTransaction)
    (extraTxn : List (Uint256 × Option CTransaction)) : Except Fault InitResult := do
  match ← self.prepare bucketSize cmpctblock with
  | (block, .inl status) => return ⟨status, block, []⟩
  | (block, .inr shorttxids) =>
    let scan := Scan.scanMempool cmpctblock shorttxids pool block.startScan
    let scan ← Scan.scanExtra cmpctblock shorttxids extraTxn scan
    let block :=
      { block with
        txnAvailable := scan.txnAvailable
        mempoolCount := scan.mempoolCount
        extraCount := scan.extraCount }
    return ⟨.ok, block, scan.txSource⟩

end PartiallyDownloadedBlock

/-- `vExtraTxnForCompact` and the slot that is written next. -/
structure ExtraTxns where
  slots : List (Uint256 × Option CTransaction)
  nextSlot : Nat

namespace ExtraTxns

/-- No transaction was added yet. -/
def empty : ExtraTxns := ⟨[], 0⟩

/-- The transactions in the ring. -/
def transactions (ring : ExtraTxns) : List CTransaction := ring.slots.filterMap Prod.snd

variable [Crypto]

/-- `AddToCompactExtraTransactions`. -/
def add (maxExtraTxs : Nat) (ring : ExtraTxns) (tx : CTransaction) : ExtraTxns :=
  if maxExtraTxs = 0 then ring
  else
    let slots :=
      if ring.slots.length = 0 then List.replicate maxExtraTxs (0, none) else ring.slots
    { slots := slots.set ring.nextSlot (tx.getWitnessHash, some tx)
      nextSlot := (ring.nextSlot + 1) % maxExtraTxs }

/-- The ring after a call for each of the transactions. -/
def addAll (maxExtraTxs : Nat) (txs : List CTransaction) : ExtraTxns :=
  txs.foldl (add maxExtraTxs) empty

end ExtraTxns

namespace CBlockHeaderAndShortTxIDs

/-- The positions of prefilled transactions, from the position after the last one on. -/
def prefilledFrom : (next : Nat) → List PrefilledTransaction → List (Nat × CTransaction)
  | _, [] => []
  | next, prefilled :: rest =>
    (next + prefilled.index.toNat, prefilled.tx) ::
      prefilledFrom (next + prefilled.index.toNat + 1) rest

variable (cmpctblock : CBlockHeaderAndShortTxIDs)

/-- The prefilled transactions of the message with their positions. -/
def prefilled : List (Nat × CTransaction) := prefilledFrom 0 cmpctblock.prefilledtxn

/-- The positions that are not prefilled, in order. -/
def missing : List Nat :=
  (List.range cmpctblock.blockTxCount).filter fun position =>
    position ∉ cmpctblock.prefilled.map Prod.fst

/-- The positions that are not prefilled with their short ids. -/
def announced : List (Nat × BitVec 64) := cmpctblock.missing.zip cmpctblock.shorttxids

/-- The message passes the checks before the scans: its header and prefilled transactions are not
null, it has a transaction and not too many, the prefilled positions leave none out, and the short
ids are distinct and none comes into a bucket that is too long. -/
structure Accepted (bucketSize : List (BitVec 64) → BitVec 64 → Nat) : Prop where
  header : cmpctblock.header.isNull = false
  nonempty : ¬(cmpctblock.shorttxids = [] ∧ cmpctblock.prefilledtxn.isEmpty)
  count : cmpctblock.blockTxCount ≤ 6000000 / 40
  prefilled : ∀ i position tx, cmpctblock.prefilled[i]? = some (position, tx) →
    tx.isNull = false ∧ position ≤ cmpctblock.shorttxids.length + i
  distinct : cmpctblock.shorttxids.Nodup
  buckets : ∀ front shortid rest, cmpctblock.shorttxids = front ++ shortid :: rest →
    bucketSize (shortid :: front.reverse) shortid ≤ 12

end CBlockHeaderAndShortTxIDs

lemma getD_set {α : Type} {elements : List α} {position : Nat}
    (hposition : position < elements.length)
    (element default : α) (other : Nat) : (elements.set position element).getD other default =
      if other = position then element else elements.getD other default := by
  rw [getD_eq_getElem?_getD, getD_eq_getElem?_getD, getElem?_set]
  by_cases heq : position = other
  · rw [if_pos heq, if_pos hposition, if_pos heq.symm]
    rfl
  · rw [if_neg heq, if_neg (Ne.symm heq)]

open CBlockHeaderAndShortTxIDs

variable {txnAvailable : List (Option CTransaction)}

/-- The first loop goes through when no transaction is null and no position is skipped that the
short ids do not fill. -/
theorem placePrefilled_iff (next i : Nat) {shortCount : Nat}
    {prefilledtxn : List PrefilledTransaction}
    (hcount : shortCount + i + prefilledtxn.length ≤ 65535)
    (txnAvailable : List (Option CTransaction)) :
    (placePrefilled shortCount prefilledtxn i ((next : Int) - 1) txnAvailable).1 = true ↔
      ∀ k position tx, (prefilledFrom next prefilledtxn)[k]? = some (position, tx) →
        tx.isNull = false ∧ position ≤ shortCount + i + k := by
  induction prefilledtxn generalizing i next txnAvailable with
  | nil => simp [placePrefilled, prefilledFrom]
  | cons prefilled rest ih =>
    rw [length_cons] at hcount
    have hlast : (next : Int) - 1 + ((prefilled.index.toNat : Int) + 1) =
        ((next + prefilled.index.toNat + 1 : Nat) : Int) - 1 := by
      omega
    have hnat : (((next + prefilled.index.toNat + 1 : Nat) : Int) - 1).toNat =
        next + prefilled.index.toNat := by
      omega
    rw [placePrefilled, prefilledFrom]
    simp only [hlast, hnat]
    have hfirst : (∀ k position tx, ((next + prefilled.index.toNat, prefilled.tx) ::
        prefilledFrom (next + prefilled.index.toNat + 1) rest)[k]? = some (position, tx) →
          tx.isNull = false ∧ position ≤ shortCount + i + k) ↔
        (prefilled.tx.isNull = false ∧ next + prefilled.index.toNat ≤ shortCount + i) ∧
          ∀ k position tx, (prefilledFrom (next + prefilled.index.toNat + 1) rest)[k]? =
            some (position, tx) → tx.isNull = false ∧ position ≤ shortCount + (i + 1) + k := by
      constructor
      · intro hall
        refine ⟨hall 0 _ _ rfl, fun k position tx hget => ?_⟩
        rw [Nat.add_assoc, Nat.add_assoc, Nat.add_comm 1 k, ← Nat.add_assoc]
        exact hall (k + 1) position tx hget
      · rintro ⟨hhead, hrest⟩ k position tx hget
        cases k with
        | zero =>
          cases hget
          exact hhead
        | succ k =>
          have hle := hrest k position tx hget
          exact ⟨hle.1, by omega⟩
    rw [hfirst]
    cases hnull : prefilled.tx.isNull with
    | true => simp
    | false =>
      rw [if_neg (by simp)]
      by_cases hrange : next + prefilled.index.toNat ≤ shortCount + i
      · rw [if_neg (by omega), if_neg (by omega),
          ih (next + prefilled.index.toNat + 1) (i + 1) (by omega)]
        exact (and_iff_right ⟨rfl, hrange⟩).symm
      · refine iff_of_false ?_ fun hall => hrange hall.1.2
        split
        · exact Bool.false_ne_true
        · rw [if_pos (by omega)]
          exact Bool.false_ne_true

/-- What the first loop leaves when it does not return: the transactions at their positions, and
one more available for each of them. -/
theorem placePrefilled_spec {shortCount i next : Nat} {prefilledtxn : List PrefilledTransaction}
    {result : List (Option CTransaction)}
    (hlength : txnAvailable.length = shortCount + i + prefilledtxn.length)
    (hfree : ∀ position, next ≤ position → txnAvailable.getD position none = none)
    (hplaced : placePrefilled shortCount prefilledtxn i ((next : Int) - 1) txnAvailable =
      (true, result)) :
    result.length = txnAvailable.length ∧ (∀ position tx, result.getD position none = some tx ↔
        (position, tx) ∈ prefilledFrom next prefilledtxn ∨
          txnAvailable.getD position none = some tx) ∧
      result.countP Option.isSome = txnAvailable.countP Option.isSome + prefilledtxn.length := by
  induction prefilledtxn generalizing i next txnAvailable with
  | nil =>
    cases hplaced
    refine ⟨rfl, fun position tx => ?_, rfl⟩
    rw [prefilledFrom, mem_nil_iff, false_or]
  | cons prefilled rest ih =>
    rw [placePrefilled] at hplaced
    rw [prefilledFrom]
    generalize hplace : next + prefilled.index.toNat = place at *
    have hlast :
        (next : Int) - 1 + ((prefilled.index.toNat : Int) + 1) = ((place + 1 : Nat) : Int) - 1 := by
      omega
    have hnat : (((place + 1 : Nat) : Int) - 1).toNat = place := by omega
    simp only [hlast, hnat] at hplaced
    split at hplaced
    · cases hplaced
    split at hplaced
    · cases hplaced
    split at hplaced
    · cases hplaced
    case isFalse _ _ hrange =>
      have hposition : place < txnAvailable.length := by
        rw [hlength, length_cons]
        omega
      have hlength' : (txnAvailable.set place (some prefilled.tx)).length =
          shortCount + (i + 1) + rest.length := by
        rw [length_set, hlength, length_cons]
        omega
      have hfree' : ∀ position, place + 1 ≤ position →
          (txnAvailable.set place (some prefilled.tx)).getD position none = none := by
        intro position hle
        rw [getD_set hposition, if_neg (by omega)]
        exact hfree position (by omega)
      obtain ⟨hsize, hresult, hcount⟩ := ih hlength' hfree' hplaced
      refine ⟨hsize.trans (length_set ..), fun position tx => ?_, ?_⟩
      · rw [hresult, getD_set hposition, mem_cons, Prod.mk.injEq]
        by_cases heq : position = place
        · subst heq
          rw [if_pos rfl, Option.some.injEq, hfree _ (by omega), eq_comm (a := tx)]
          simp [or_comm]
        · simp [heq]
      · have hnone : (txnAvailable.get ⟨place, hposition⟩) = none := by
          have hget := hfree place (by omega)
          rw [getD_eq_getElem?_getD, getElem?_eq_getElem hposition] at hget
          exact hget
        have hset := countP_set (p := Option.isSome) (a := some prefilled.tx) hposition
        rw [get_eq_getElem] at hnone
        rw [hnone] at hset
        rw [hcount, hset, length_cons]
        simp
        omega

/-- The positions without a transaction, counted from a start. -/
def missingFrom : List (Option CTransaction) → (position : Nat) → List Nat
  | [], _ => []
  | none :: rest, position => position :: missingFrom rest (position + 1)
  | some _ :: rest, position => missingFrom rest (position + 1)

section

variable (txnAvailable : List (Option CTransaction)) (position : Nat)

lemma missingFrom_length :
    (missingFrom txnAvailable position).length + txnAvailable.countP Option.isSome =
      txnAvailable.length := by
  induction txnAvailable generalizing position with
  | nil => rfl
  | cons tx rest ih =>
    have hrest := ih (position + 1)
    cases tx with
    | none =>
      rw [missingFrom, length_cons, countP_cons_of_neg (by simp), length_cons]
      omega
    | some tx =>
      rw [missingFrom, countP_cons_of_pos (by simp), length_cons]
      omega

lemma missingFrom_eq_filter : missingFrom txnAvailable position =
      (range' position txnAvailable.length).filter fun other =>
        (txnAvailable.getD (other - position) none).isNone := by
  induction txnAvailable generalizing position with
  | nil => rfl
  | cons tx rest ih =>
    have hshift : (range' (position + 1) rest.length).filter (fun other =>
        ((tx :: rest).getD (other - position) none).isNone) = missingFrom rest (position + 1) := by
      rw [ih]
      apply filter_congr
      intro other hmem
      obtain ⟨offset, -, rfl⟩ := mem_range'.1 hmem
      rw [show position + 1 + 1 * offset - position = offset + 1 by omega,
        show position + 1 + 1 * offset - (position + 1) = offset by omega, getD_cons_succ]
    rw [length_cons, range'_succ]
    cases tx with
    | none => rw [missingFrom, filter_cons_of_pos (by simp), hshift]
    | some tx => rw [missingFrom, filter_cons_of_neg (by simp), hshift]

end

/-- The inner loop finds the first of the missing positions, and the others are the missing ones
after it. -/
theorem firstMissing_spec {start position : Nat} {others : List Nat}
    (hmissing : missingFrom (txnAvailable.drop start) start = position :: others) :
    firstMissing (txnAvailable.drop start) start = .ok position ∧ start ≤ position ∧
      missingFrom (txnAvailable.drop (position + 1)) (position + 1) = others := by
  generalize hrest : txnAvailable.drop start = rest at hmissing
  induction rest generalizing start with
  | nil => cases hmissing
  | cons tx rest ih =>
    have htail : txnAvailable.drop (start + 1) = rest := by
      rw [← drop_drop, hrest, drop_one, tail_cons]
    cases tx with
    | none =>
      obtain ⟨rfl, hothers⟩ := cons.inj hmissing
      exact ⟨rfl, le_refl _, by rw [htail]; exact hothers⟩
    | some tx =>
      obtain ⟨hfirst, hle, hothers⟩ := ih htail hmissing
      exact ⟨hfirst, by omega, hothers⟩

/-- The map with one position after the other inserted. -/
def insertAll (pairs : List (Nat × BitVec 64)) (shorttxids : ShortIdMap) : ShortIdMap :=
  pairs.foldl (fun shorttxids pair => shorttxids.insert pair.2 pair.1) shorttxids

variable (pair : Nat × BitVec 64) (pairs : List (Nat × BitVec 64)) (shorttxids : ShortIdMap)
  (bucketSize : List (BitVec 64) → BitVec 64 → Nat)

/-- A short id that comes into a bucket of more than twelve. -/
def Crowded (pairs : List (Nat × BitVec 64)) (shorttxids : ShortIdMap) : Prop :=
  ∃ front pair rest, pairs = front ++ pair :: rest ∧
    12 < bucketSize (insertAll (front ++ [pair]) shorttxids).keys pair.2

lemma crowded_cons : Crowded bucketSize (pair :: pairs) shorttxids ↔
    12 < bucketSize (shorttxids.insert pair.2 pair.1).keys pair.2 ∨
      Crowded bucketSize pairs (shorttxids.insert pair.2 pair.1) := by
  constructor
  · rintro ⟨front, other, rest, heq, hfull⟩
    cases front with
    | nil =>
      cases heq
      exact .inl hfull
    | cons first front =>
      cases heq
      exact .inr ⟨front, other, rest, rfl, hfull⟩
  · rintro (hfull | ⟨front, other, rest, rfl, hfull⟩)
    · exact ⟨[], pair, pairs, rfl, hfull⟩
    · exact ⟨pair :: front, other, rest, rfl, hfull⟩

/-- When there are enough missing positions the second loop gives them to the short ids in order,
and it fails exactly for a bucket that is too long. -/
theorem mapShortIds_spec {shortids : List (BitVec 64)} {i indexOffset : Nat} {positions : List Nat}
    (hmissing : missingFrom (txnAvailable.drop (i + indexOffset)) (i + indexOffset) = positions)
    (henough : shortids.length ≤ positions.length) (shorttxids : ShortIdMap) :
    mapShortIds bucketSize txnAvailable shortids i indexOffset shorttxids = .ok none ∧
        Crowded bucketSize (positions.zip shortids) shorttxids ∨
      mapShortIds bucketSize txnAvailable shortids i indexOffset shorttxids =
          .ok (some (insertAll (positions.zip shortids) shorttxids)) ∧
        ¬Crowded bucketSize (positions.zip shortids) shorttxids := by
  induction shortids generalizing i indexOffset positions shorttxids with
  | nil =>
    rw [zip_nil_right]
    refine .inr ⟨rfl, ?_⟩
    rintro ⟨front, pair, rest, heq, -⟩
    cases front <;> cases heq
  | cons shortid rest ih =>
    cases positions with
    | nil => simp at henough
    | cons position others =>
      obtain ⟨hfirst, hle, hothers⟩ := firstMissing_spec hmissing
      have hnext : i + 1 + (position - i) = position + 1 := by omega
      rw [← hnext] at hothers
      rw [mapShortIds, hfirst, zip_cons_cons, crowded_cons]
      change (if _ then _ else _) = _ ∧ _ ∨ (if _ then _ else _) = _ ∧ _
      by_cases hfull : bucketSize (shorttxids.insert shortid position).keys shortid > 12
      · rw [if_pos hfull]
        exact .inl ⟨rfl, .inl hfull⟩
      · rw [if_neg hfull, or_iff_right hfull]
        exact ih hothers (Nat.le_of_succ_le_succ henough) _

lemma keys_length : shorttxids.keys.length = shorttxids.entries.length := by
  rw [AList.keys, keys, length_map]

lemma insert_entries_length (shortid : BitVec 64) (position : Nat) :
    (shorttxids.insert shortid position).entries.length ≤ shorttxids.entries.length + 1 ∧
      (shortid ∈ shorttxids → (shorttxids.insert shortid position).entries.length ≤
        shorttxids.entries.length) := by
  rw [← keys_length, ← keys_length, AList.keys_insert, length_cons]
  refine ⟨Nat.succ_le_succ length_erase_le, fun hmem => ?_⟩
  have hkey := AList.mem_keys.1 hmem
  have hpos := length_pos_of_mem hkey
  rw [length_erase_of_mem hkey]
  omega

lemma insertAll_cons :
    insertAll (pair :: pairs) shorttxids = insertAll pairs (shorttxids.insert pair.2 pair.1) := rfl

lemma insertAll_length :
    (insertAll pairs shorttxids).entries.length ≤ shorttxids.entries.length + pairs.length := by
  induction pairs generalizing shorttxids with
  | nil => exact le_refl _
  | cons pair pairs ih =>
    have hrest := ih (shorttxids.insert pair.2 pair.1)
    have hinsert := (insert_entries_length shorttxids pair.2 pair.1).1
    rw [insertAll_cons, length_cons]
    omega

lemma lookup_insertAll {pairs : List (Nat × BitVec 64)} {shorttxids : ShortIdMap}
    (hlength : (insertAll pairs shorttxids).entries.length = shorttxids.entries.length +
      pairs.length)
    (shortid : BitVec 64) (position : Nat) :
    (insertAll pairs shorttxids).lookup shortid = some position ↔
      shorttxids.lookup shortid = some position ∨ (position, shortid) ∈ pairs := by
  induction pairs generalizing shorttxids with
  | nil => rw [mem_nil_iff, or_false]; rfl
  | cons pair pairs ih =>
    obtain ⟨first, id⟩ := pair
    rw [insertAll_cons, length_cons] at hlength
    dsimp only at hlength
    have hrest := insertAll_length pairs (shorttxids.insert id first)
    have hinsert := insert_entries_length shorttxids id first
    have hnew : id ∉ shorttxids := by
      intro hmem
      have hsame := hinsert.2 hmem
      omega
    rw [insertAll_cons]
    dsimp only
    rw [ih (by omega), mem_cons, Prod.mk.injEq, ← or_assoc]
    by_cases heq : shortid = id
    · subst heq
      rw [AList.lookup_insert, AList.lookup_eq_none.2 hnew, Option.some.injEq]
      simp [eq_comm]
    · simp [heq]

/-- The map has an entry for each of the ids exactly when they are distinct and new. -/
lemma insertAll_length_iff (pairs : List (Nat × BitVec 64)) (shorttxids : ShortIdMap) :
    (insertAll pairs shorttxids).entries.length = shorttxids.entries.length + pairs.length ↔
      (pairs.map Prod.snd).Nodup ∧ ∀ pair ∈ pairs, pair.2 ∉ shorttxids := by
  induction pairs generalizing shorttxids with
  | nil => simp [insertAll]
  | cons pair pairs ih =>
    have hrest := insertAll_length pairs (shorttxids.insert pair.2 pair.1)
    have hinsert := insert_entries_length shorttxids pair.2 pair.1
    have hnext := ih (shorttxids.insert pair.2 pair.1)
    rw [insertAll_cons, length_cons, map_cons, nodup_cons, forall_mem_cons]
    by_cases hmem : pair.2 ∈ shorttxids
    · have hsame := hinsert.2 hmem
      exact iff_of_false (by omega) fun hnew => hnew.2.1 hmem
    · have hone : (shorttxids.insert pair.2 pair.1).entries.length =
          shorttxids.entries.length + 1 := by
        rw [← keys_length, ← keys_length, AList.keys_insert, length_cons,
          erase_of_not_mem (AList.mem_keys.not.1 hmem)]
      rw [hone, Nat.add_assoc, Nat.add_comm 1] at hnext
      rw [hnext]
      simp only [AList.mem_insert, not_or, mem_map, not_exists, not_and]
      constructor
      · rintro ⟨hnodup, hnew⟩
        exact ⟨⟨fun other hother => (hnew other hother).1, hnodup⟩, hmem,
          fun other hother => (hnew other hother).2⟩
      · rintro ⟨⟨hhead, hnodup⟩, -, hnew⟩
        exact ⟨hnodup, fun other hother => ⟨hhead other hother, hnew other hother⟩⟩

lemma insertAll_zip_length_iff {positions : List Nat} {shortids : List (BitVec 64)}
    (hlength : positions.length = shortids.length) :
    (insertAll (positions.zip shortids) ∅).entries.length = shortids.length ↔
      shortids.Nodup := by
  have hiff := insertAll_length_iff (positions.zip shortids) ∅
  have hempty : (∅ : ShortIdMap).entries.length = 0 := rfl
  rw [map_snd_zip hlength.ge, length_zip, hlength, Nat.min_self, hempty, Nat.zero_add] at hiff
  exact hiff.trans (and_iff_left fun pair _ => AList.notMem_empty pair.2)

lemma keys_insertAll {pairs : List (Nat × BitVec 64)} {shorttxids : ShortIdMap}
    (hnodup : (pairs.map Prod.snd).Nodup) (hnew : ∀ pair ∈ pairs, pair.2 ∉ shorttxids) :
    (insertAll pairs shorttxids).keys = (pairs.map Prod.snd).reverse ++ shorttxids.keys := by
  induction pairs generalizing shorttxids with
  | nil => rfl
  | cons pair pairs ih =>
    rw [map_cons, nodup_cons] at hnodup
    obtain ⟨hhead, hnew⟩ := forall_mem_cons.1 hnew
    rw [insertAll_cons, ih hnodup.2, AList.keys_insert,
      erase_of_not_mem (AList.mem_keys.not.1 hhead), map_cons, reverse_cons, append_assoc]
    · rfl
    · intro other hother
      rw [AList.mem_insert, not_or]
      exact ⟨fun heq => hnodup.1 (heq ▸ mem_map_of_mem hother), hnew other hother⟩

/-- Distinct short ids are crowded when one comes into a long bucket with those before it. -/
lemma crowded_iff {positions : List Nat} {shortids : List (BitVec 64)} (hnodup : shortids.Nodup)
    (hlength : positions.length = shortids.length) :
    Crowded bucketSize (positions.zip shortids) ∅ ↔
      ∃ front shortid rest, shortids = front ++ shortid :: rest ∧
        12 < bucketSize (shortid :: front.reverse) shortid := by
  have hsnd : (positions.zip shortids).map Prod.snd = shortids :=
    map_snd_zip hlength.ge
  -- The table after a part of the pairs has their ids, the last one first.
  have hkeys : ∀ front pair rest, positions.zip shortids = front ++ pair :: rest →
      (insertAll (front ++ [pair]) ∅).keys = pair.2 :: (front.map Prod.snd).reverse := by
    intro front pair rest heq
    rw [keys_insertAll, map_append, reverse_append, AList.keys_empty, append_nil]
    · rfl
    · rw [heq, map_append, map_cons] at hsnd
      rw [map_append]
      refine (hsnd ▸ hnodup).sublist (append_sublist_append_left _ |>.2 ?_)
      exact cons_sublist_cons.2 (nil_sublist _)
    · exact fun other _ => AList.notMem_empty _
  constructor
  · rintro ⟨front, pair, rest, heq, hfull⟩
    refine ⟨front.map Prod.snd, pair.2, rest.map Prod.snd, ?_, ?_⟩
    · rw [← hsnd, heq, map_append, map_cons]
    · rwa [hkeys front pair rest heq] at hfull
  · rintro ⟨front, shortid, rest, heq, hfull⟩
    rw [← hsnd] at heq
    obtain ⟨front, tail, hzip, rfl, htail⟩ := map_eq_append_iff.1 heq
    obtain ⟨pair, rest, rfl, rfl, rfl⟩ := map_eq_cons_iff.1 htail
    refine ⟨front, pair, rest, hzip, ?_⟩
    rwa [hkeys front pair rest hzip]

/-- What holds when the scans start: the prefilled transactions are in their positions and the map
has the short ids of all other positions. -/
structure Ready (cmpctblock : CBlockHeaderAndShortTxIDs) (block : PartiallyDownloadedBlock)
    (shorttxids : ShortIdMap) : Prop where
  length : block.txnAvailable.length = cmpctblock.blockTxCount
  prefilled : ∀ position tx, block.txnAvailable.getD position none = some tx ↔
    (position, tx) ∈ cmpctblock.prefilled
  lookup : ∀ shortid position, shorttxids.lookup shortid = some position ↔
    (position, shortid) ∈ cmpctblock.announced
  size : shorttxids.entries.length = cmpctblock.shorttxids.length
  missing : cmpctblock.missing.length = cmpctblock.shorttxids.length
  mempoolCount : block.mempoolCount = 0
  extraCount : block.extraCount = 0

lemma missingFrom_placed {cmpctblock : CBlockHeaderAndShortTxIDs}
    (hlength : txnAvailable.length = cmpctblock.blockTxCount)
    (hprefilled : ∀ position tx, txnAvailable.getD position none = some tx ↔
      (position, tx) ∈ cmpctblock.prefilled) : missingFrom txnAvailable 0 = cmpctblock.missing := by
  rw [missingFrom_eq_filter, ← range_eq_range', hlength, missing]
  apply filter_congr
  intro position _
  rw [Nat.sub_zero, Bool.eq_iff_iff, decide_eq_true_eq, Option.isNone_iff_eq_none, mem_map]
  constructor
  · rintro hnone ⟨⟨_, tx⟩, hmem, rfl⟩
    rw [(hprefilled _ tx).2 hmem] at hnone
    cases hnone
  · intro hfree
    cases hget : txnAvailable.getD position none with
    | none => rfl
    | some tx => exact absurd ⟨(position, tx), (hprefilled position tx).1 hget, rfl⟩ hfree

lemma placed_spec {cmpctblock : CBlockHeaderAndShortTxIDs}
    (hplaced : placePrefilled cmpctblock.shorttxids.length cmpctblock.prefilledtxn 0 (-1)
      (replicate cmpctblock.blockTxCount none) = (true, txnAvailable)) :
    txnAvailable.length = cmpctblock.blockTxCount ∧
      (∀ position tx, txnAvailable.getD position none = some tx ↔
        (position, tx) ∈ cmpctblock.prefilled) ∧
      cmpctblock.missing.length = cmpctblock.shorttxids.length := by
  have hreplicate : ∀ position, (replicate cmpctblock.blockTxCount
      (none : Option CTransaction)).getD position none = none := by
    intro position
    rw [getD_eq_getElem?_getD, getElem?_replicate]
    split <;> rfl
  have hstart : (replicate cmpctblock.blockTxCount (none : Option CTransaction)).length =
      cmpctblock.shorttxids.length + 0 + cmpctblock.prefilledtxn.length := by
    rw [length_replicate, blockTxCount, Nat.add_zero]
  have hlast : (-1 : Int) = ((0 : Nat) : Int) - 1 := rfl
  rw [hlast] at hplaced
  obtain ⟨hlength, hresult, hcount⟩ :=
    placePrefilled_spec hstart (fun position _ => hreplicate position) hplaced
  rw [length_replicate] at hlength
  have hprefilled : ∀ position tx, txnAvailable.getD position none = some tx ↔
      (position, tx) ∈ cmpctblock.prefilled := by
    intro position tx
    rw [hresult, hreplicate]
    simp [prefilled]
  refine ⟨hlength, hprefilled, ?_⟩
  have htotal := missingFrom_length txnAvailable 0
  rw [missingFrom_placed hlength hprefilled, hcount, hlength, countP_replicate,
    if_neg (by simp), blockTxCount] at htotal
  omega

/-- The part of `InitData` before the scans has no undefined behaviour. It returns early without
success, or the scans can start, which they do for the messages that pass the checks. -/
theorem prepare_spec (cmpctblock : CBlockHeaderAndShortTxIDs) :
    ∃ block next, PartiallyDownloadedBlock.new.prepare bucketSize cmpctblock = .ok (block, next) ∧
      match next with
      | .inl status => status ≠ .ok ∧ ¬cmpctblock.Accepted bucketSize
      | .inr shorttxids =>
        Ready cmpctblock block shorttxids ∧ cmpctblock.Accepted bucketSize := by
  rw [PartiallyDownloadedBlock.prepare]
  split
  case isTrue hinvalid =>
    refine ⟨_, _, rfl, nofun, fun haccepted => ?_⟩
    rcases hinvalid with hnull | hempty
    · exact Bool.false_ne_true (haccepted.header.symm.trans hnull)
    · exact haccepted.nonempty hempty
  case isFalse hvalid =>
  obtain ⟨hheader, hnonempty⟩ := not_or.1 hvalid
  split
  case isTrue hmany => exact ⟨_, _, rfl, nofun, fun haccepted => hmany.not_ge haccepted.count⟩
  case isFalse hfew =>
  rw [if_neg (by decide)]
  have hplacedIff := placePrefilled_iff 0 0 cmpctblock.blockTxCountLe
    (replicate cmpctblock.blockTxCount none)
  have hlast : ((0 : Nat) : Int) - 1 = -1 := rfl
  rw [hlast] at hplacedIff
  cases hplaced : placePrefilled cmpctblock.shorttxids.length cmpctblock.prefilledtxn 0 (-1)
      (replicate cmpctblock.blockTxCount none) with
  | mk placed txnAvailable =>
    rw [hplaced] at hplacedIff
    cases placed with
    | false =>
      refine ⟨_, .inl .invalid, rfl, nofun, fun haccepted => ?_⟩
      exact Bool.false_ne_true (hplacedIff.2 haccepted.prefilled)
    | true =>
      obtain ⟨hlength, hprefilled, henough⟩ := placed_spec hplaced
      have hmissing : missingFrom (txnAvailable.drop (0 + 0)) (0 + 0) = cmpctblock.missing :=
        missingFrom_placed hlength hprefilled
      have hpairs : (cmpctblock.missing.zip cmpctblock.shorttxids).length =
          cmpctblock.shorttxids.length := by
        rw [length_zip, henough, Nat.min_self]
      have hdistinct := insertAll_zip_length_iff henough
      dsimp only
      rw [if_neg (by decide)]
      rcases mapShortIds_spec bucketSize hmissing henough.ge ∅ with
        ⟨hfull, hcrowded⟩ | ⟨hmapped, hcrowded⟩
      · rw [hfull]
        refine ⟨_, .inl .failed, rfl, nofun, fun haccepted => ?_⟩
        obtain ⟨front, shortid, rest, heq, hlong⟩ :=
          (crowded_iff bucketSize haccepted.distinct henough).1 hcrowded
        exact hlong.not_ge (haccepted.buckets front shortid rest heq)
      · rw [hmapped]
        dsimp only [bind, Except.bind, pure, Except.pure]
        split
        case isTrue hsize =>
          exact ⟨_, .inl .failed, rfl, nofun,
            fun haccepted => hsize (hdistinct.2 haccepted.distinct)⟩
        case isFalse hsize =>
          have hsame := not_not.1 hsize
          refine ⟨_, .inr _, rfl, ⟨hlength, hprefilled, fun shortid position => ?_, hsame, henough,
            rfl, rfl⟩, ?_⟩
          · rw [lookup_insertAll (by rw [hsame, hpairs]; exact (Nat.zero_add _).symm),
              AList.lookup_empty, announced]
            simp
          · have hnodup := hdistinct.1 hsame
            refine ⟨by simpa using hheader, hnonempty, not_lt.1 hfew, hplacedIff.1 rfl, hnodup, ?_⟩
            intro front shortid rest heq
            by_contra hlong
            exact hcrowded ((crowded_iff bucketSize hnodup henough).2
              ⟨front, shortid, rest, heq, not_le.1 hlong⟩)

end Tidecoin
