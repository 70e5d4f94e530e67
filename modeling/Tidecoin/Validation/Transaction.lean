import Tidecoin.Primitives
import Tidecoin.Script.Script
import Tidecoin.Subsidy

/-!
Validation results (`consensus/validation.h`) and the checks of a transaction that need no coins:
`consensus/tx_check.cpp`, the final-transaction rule and the legacy signature operation count of
`consensus/tx_verify.cpp`.
-/

namespace Tidecoin

open Lib

inductive TxValidationResult where
  | resultUnset
  | consensus
  | inputsNotStandard
  | notStandard
  | missingInputs
  | prematureSpend
  | witnessMutated
  | witnessStripped
  | conflict
  | mempoolPolicy
  | noMempool
  | reconsiderable
  | unknown
deriving DecidableEq, Repr

inductive BlockValidationResult where
  | resultUnset
  | consensus
  | cachedInvalid
  | invalidHeader
  | mutated
  | missingPrev
  | invalidPrev
  | timeFuture
  | headerLowWork
deriving DecidableEq, Repr

/-- What `ValidationState::Invalid` records. -/
structure Invalid (Result : Type) where
  result : Result
  rejectReason : String
  debugMessage : String
deriving DecidableEq, Repr

abbrev TxInvalid := Invalid TxValidationResult

abbrev BlockInvalid := Invalid BlockValidationResult

def witnessScaleFactor : Nat := 4

def maxBlockWeight : Nat := 6000000

def maxBlockSigopsCost : Nat := 80000

def locktimeThreshold : Int := 500000000

def sequenceFinal : UInt32 := 0xffffffff

/-- A failure of `CheckTransaction`; it never has a debug message. -/
def txConsensus (rejectReason : String) : TxInvalid := ⟨.consensus, rejectReason, ""⟩

/-- The loop over the outputs: no value out of range, nor their sum at any point. -/
def checkOutputs : (nValueOut : Int) → List CTxOut → Except TxInvalid Unit
  | _, [] => .ok ()
  | nValueOut, txout :: vout => do
      require (0 ≤ txout.nValue.toInt) (txConsensus "bad-txns-vout-negative")
      require (txout.nValue.toInt ≤ maxMoney) (txConsensus "bad-txns-vout-toolarge")
      require (moneyRange (nValueOut + txout.nValue.toInt))
        (txConsensus "bad-txns-txouttotal-toolarge")
      checkOutputs (nValueOut + txout.nValue.toInt) vout

lemma checkOutputs_moneyRange {nValueOut : Int} {vout : List CTxOut}
    (hcheck : checkOutputs nValueOut vout = .ok ()) :
    ∀ txout ∈ vout, moneyRange txout.nValue.toInt := by
  induction vout generalizing nValueOut with
  | nil => simp
  | cons txout vout ih =>
    obtain ⟨_, hnonneg, hcheck⟩ := bind_eq_ok.1 hcheck
    obtain ⟨_, hlarge, hcheck⟩ := bind_eq_ok.1 hcheck
    obtain ⟨_, -, hcheck⟩ := bind_eq_ok.1 hcheck
    refine List.forall_mem_cons.2 ⟨?_, ih hcheck⟩
    exact moneyRange_iff.2 ⟨require_eq_ok.1 hnonneg, require_eq_ok.1 hlarge⟩

def checkTransaction (tx : CTransaction) : Except TxInvalid Unit := do
  require (tx.vin ≠ []) (txConsensus "bad-txns-vin-empty")
  require (tx.vout ≠ []) (txConsensus "bad-txns-vout-empty")
  require ((tx.serialize false).length * witnessScaleFactor ≤ maxBlockWeight)
    (txConsensus "bad-txns-oversize")
  checkOutputs 0 tx.vout
  require (tx.vin.map CTxIn.prevout).Nodup (txConsensus "bad-txns-inputs-duplicate")
  if tx.isCoinBase then
    require (∀ txin ∈ tx.vin.head?, 2 ≤ txin.scriptSig.length ∧ txin.scriptSig.length ≤ 106)
      (txConsensus "bad-cb-length")
  else
    require (∀ txin ∈ tx.vin, txin.prevout.isNull = false) (txConsensus "bad-txns-prevout-null")

lemma checkTransaction_ok {tx : CTransaction} (hcheck : checkTransaction tx = .ok ()) :
    tx.vin ≠ [] ∧ (tx.vin.map CTxIn.prevout).Nodup ∧ checkOutputs 0 tx.vout = .ok () ∧
      (tx.serialize false).length * witnessScaleFactor ≤ maxBlockWeight := by
  obtain ⟨_, hvin, hcheck⟩ := bind_eq_ok.1 hcheck
  obtain ⟨_, -, hcheck⟩ := bind_eq_ok.1 hcheck
  obtain ⟨_, hsize, hcheck⟩ := bind_eq_ok.1 hcheck
  obtain ⟨_, hvout, hcheck⟩ := bind_eq_ok.1 hcheck
  obtain ⟨_, hnodup, -⟩ := bind_eq_ok.1 hcheck
  exact ⟨require_eq_ok.1 hvin, require_eq_ok.1 hnodup, hvout, require_eq_ok.1 hsize⟩

def isFinalTx (tx : CTransaction) (nBlockHeight nBlockTime : Int) : Bool :=
  let nLockTime : Int := tx.nLockTime.toNat
  nLockTime = 0 ||
    nLockTime < (if nLockTime < locktimeThreshold then nBlockHeight else nBlockTime) ||
    tx.vin.all fun txin => txin.nSequence = sequenceFinal

/-- `GetLegacySigOpCount`, as an `unsigned int`. -/
def getLegacySigOpCount (tx : CTransaction) : Nat :=
  ((tx.vin.map fun txin => Script.getSigOpCount txin.scriptSig false).sum +
    (tx.vout.map fun txout => Script.getSigOpCount txout.scriptPubKey false).sum) % 2 ^ 32

end Tidecoin
