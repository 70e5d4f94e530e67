import Tidecoin.Chain
import Tidecoin.Coins
import Tidecoin.Script.Programs

/-!
The checks of `consensus/tx_verify.cpp` that need the coins a transaction spends: amounts, relative
lock times and the cost of its signature operations. The coins are read through `inputs`, the
answers of `AccessCoin`.

An amount is an `int64_t`, and C++ does not define what becomes of a result outside its range. Every
amount is therefore computed by an `Arithmetic`: `wrapping` reduces the exact result modulo `2 ^ 64`
as the machine does, and `checked` stops. Where the two agree no computation left the range.
-/

namespace Tidecoin

open Lib

variable {nValueOut : Int}

/-- How a validation function can end without success: its state is invalid, or it does not end
normally at all. -/
inductive Failure (Result : Type) where
  | overflow
  | assertion
  | exception (what : String)
  | coins (failure : CoinsFailure)
  | systemError (message : String)
  | invalid (state : Invalid Result)
deriving DecidableEq, Repr

/-- The value fits an `int64_t`. -/
def int64Range (value : Int) : Bool := -2 ^ 63 ≤ value && value < 2 ^ 63

/-- What becomes of the exact result of a computation on amounts. -/
abbrev Arithmetic := Int → Option Int

namespace Arithmetic

def wrapping : Arithmetic := fun exact => some (exact.bmod (2 ^ 64))

def checked : Arithmetic := fun exact => if int64Range exact then some exact else none

/-- The result of a computation. -/
def compute {Result : Type} (arith : Arithmetic) (exact : Int) : Except (Failure Result) Int :=
  match arith exact with
  | some value => .ok value
  | none => .error .overflow

variable {Result : Type} {exact value : Int}

lemma compute_wrapping (hrange : int64Range exact) :
    wrapping.compute exact = (checked.compute exact : Except (Failure Result) Int) := by
  have hexact : exact.bmod (2 ^ 64) = exact := by
    simp only [int64Range, Bool.and_eq_true, decide_eq_true_eq] at hrange
    rw [Int.bmod_def]
    split <;> omega
  simp only [compute, wrapping, checked, hexact, if_pos hrange]

lemma compute_checked_eq_ok
    (hcompute : checked.compute exact = (.ok value : Except (Failure Result) Int)) :
    value = exact := by
  unfold compute checked at hcompute
  split at hcompute
  case h_1 result hresult =>
    split at hresult
    · cases hresult
      cases hcompute
      rfl
    · cases hresult
  case h_2 => cases hcompute

end Arithmetic

lemma int64Range_of_moneyRange {left right : Int} (hleft : moneyRange left)
    (hright : moneyRange right) :
    int64Range (left + right) ∧ int64Range (left - right) := by
  rw [moneyRange_iff] at hleft hright
  have hmax : maxMoney = 2100000000000000 := by decide
  simp only [int64Range, Bool.and_eq_true, decide_eq_true_eq]
  omega

/-- The value of a list of outputs. -/
def outputsValue (vout : List CTxOut) : Int := (vout.map fun txout => txout.nValue.toInt).sum

def coinbaseMaturity : Int := 100

/-- The loop of `FormatMoney` over the text from its end: zeros go while two decimals stay. -/
def trimZeros : List Char → List Char
  | last :: next :: digit :: rest =>
    if last = '0' ∧ digit.isDigit then trimZeros (next :: digit :: rest)
    else last :: next :: digit :: rest
  | chars => chars

def formatMoney (n : Int) : String :=
  let decimals := List.leftpad 8 '0' (Nat.toDigits 10 (n.natAbs % coin.toNat))
  let str := Nat.toDigits 10 (n.natAbs / coin.toNat) ++ '.' :: decimals
  String.ofList ((if n < 0 then ['-'] else []) ++ (trimZeros str.reverse).reverse)

section

variable (arith : Arithmetic)

/-- The loop of `GetValueOut`. -/
def valueOutFrom {Result : Type} : (nValueOut : Int) → List CTxOut → Except (Failure Result) Int
  | nValueOut, [] => .ok nValueOut
  | nValueOut, txOut :: vout => do
      require (moneyRange txOut.nValue.toInt) (.exception "GetValueOut: value out of range")
      let nValueOut ← arith.compute (nValueOut + txOut.nValue.toInt)
      require (moneyRange nValueOut) (.exception "GetValueOut: value out of range")
      valueOutFrom nValueOut vout

def getValueOut {Result : Type} (tx : CTransaction) : Except (Failure Result) Int := do
  let nValueOut ← valueOutFrom arith 0 tx.vout
  require (moneyRange nValueOut) .assertion
  return nValueOut

/-- The loop of `CheckTransaction` over the outputs, see `checkOutputs`. -/
def checkOutputsWith : (nValueOut : Int) → List CTxOut → Except (Failure TxValidationResult) Unit
  | _, [] => .ok ()
  | nValueOut, txout :: vout => do
      require (0 ≤ txout.nValue.toInt) (.invalid (txConsensus "bad-txns-vout-negative"))
      require (txout.nValue.toInt ≤ maxMoney) (.invalid (txConsensus "bad-txns-vout-toolarge"))
      let nValueOut ← arith.compute (nValueOut + txout.nValue.toInt)
      require (moneyRange nValueOut) (.invalid (txConsensus "bad-txns-txouttotal-toolarge"))
      checkOutputsWith nValueOut vout

/-- The loop of `CheckTxInputs`. The sum is formed before the amount is checked. -/
def sumInputs (inputs : COutPoint → Coin) (nSpendHeight : Int) :
    (nValueIn : Int) → List CTxIn → Except (Failure TxValidationResult) Int
  | nValueIn, [] => .ok nValueIn
  | nValueIn, txin :: vin => do
      let coin := inputs txin.prevout
      let depth := nSpendHeight - coin.nHeight.toNat
      require (coin.isSpent = false) .assertion
      require (coin.fCoinBase = true → coinbaseMaturity ≤ depth)
        (.invalid ⟨.prematureSpend, "bad-txns-premature-spend-of-coinbase",
          "tried to spend coinbase at depth " ++ toString depth⟩)
      let nValueIn ← arith.compute (nValueIn + coin.out.nValue.toInt)
      require (moneyRange coin.out.nValue.toInt ∧ moneyRange nValueIn)
        (.invalid (txConsensus "bad-txns-inputvalues-outofrange"))
      sumInputs inputs nSpendHeight nValueIn vin

variable {arith}

lemma valueOutFrom_wrapping {Result : Type} (hrange : moneyRange nValueOut)
    (vout : List CTxOut) : valueOutFrom .wrapping nValueOut vout =
      (valueOutFrom .checked nValueOut vout : Except (Failure Result) Int) := by
  induction vout generalizing nValueOut with
  | nil => rfl
  | cons txOut vout ih =>
    apply bind_congr_ok
    intro _ hvalue
    rw [Arithmetic.compute_wrapping (int64Range_of_moneyRange hrange (require_eq_ok.1 hvalue)).1]
    apply bind_congr_ok
    intro sum _
    apply bind_congr_ok
    intro _ hsum
    exact ih (require_eq_ok.1 hsum)

lemma getValueOut_wrapping {Result : Type} (tx : CTransaction) :
    getValueOut .wrapping tx = (getValueOut .checked tx : Except (Failure Result) Int) := by
  unfold getValueOut
  rw [valueOutFrom_wrapping (by decide)]

lemma valueOutFrom_checked {Result : Type} {value : Int} {vout : List CTxOut}
    (hvalue : valueOutFrom .checked nValueOut vout = (.ok value : Except (Failure Result) Int)) :
    value = nValueOut + outputsValue vout ∧ ∀ txout ∈ vout, moneyRange txout.nValue.toInt := by
  induction vout generalizing nValueOut with
  | nil =>
    cases hvalue
    simp [outputsValue]
  | cons txOut vout ih =>
    obtain ⟨_, hrange, hvalue⟩ := bind_eq_ok.1 hvalue
    obtain ⟨sum, hsum, hvalue⟩ := bind_eq_ok.1 hvalue
    obtain ⟨_, -, hvalue⟩ := bind_eq_ok.1 hvalue
    obtain ⟨hrest, hmoney⟩ := ih hvalue
    have hexact := Arithmetic.compute_checked_eq_ok hsum
    refine ⟨?_, List.forall_mem_cons.2 ⟨require_eq_ok.1 hrange, hmoney⟩⟩
    simp only [outputsValue, List.map_cons, List.sum_cons] at hrest ⊢
    omega

lemma getValueOut_checked {Result : Type} {tx : CTransaction} {value : Int}
    (hvalue : getValueOut .checked tx = (.ok value : Except (Failure Result) Int)) :
    value = outputsValue tx.vout ∧ moneyRange value ∧
      ∀ txout ∈ tx.vout, moneyRange txout.nValue.toInt := by
  obtain ⟨sum, hsum, hvalue⟩ := bind_eq_ok.1 hvalue
  obtain ⟨_, hrange, hvalue⟩ := bind_eq_ok.1 hvalue
  cases hvalue
  obtain ⟨hexact, hmoney⟩ := valueOutFrom_checked hsum
  refine ⟨?_, require_eq_ok.1 hrange, hmoney⟩
  rw [hexact, zero_add]

lemma checkOutputsWith_checked (hrange : moneyRange nValueOut) (vout : List CTxOut) :
    checkOutputsWith .checked nValueOut vout = (checkOutputs nValueOut vout).mapError .invalid := by
  induction vout generalizing nValueOut with
  | nil => rfl
  | cons txout vout ih =>
    unfold checkOutputsWith checkOutputs
    by_cases hneg : 0 ≤ txout.nValue.toInt
    · by_cases hlarge : txout.nValue.toInt ≤ maxMoney
      · have hmoney := moneyRange_iff.2 ⟨hneg, hlarge⟩
        have hsum := (int64Range_of_moneyRange hrange hmoney).1
        have hcompute : Arithmetic.checked.compute (nValueOut + txout.nValue.toInt) =
            (.ok (nValueOut + txout.nValue.toInt) : Except (Failure TxValidationResult) Int) := by
          simp [Arithmetic.compute, Arithmetic.checked, if_pos hsum]
        rw [require_pos hneg, require_pos hlarge, hcompute, require_pos hneg, require_pos hlarge]
        by_cases htotal : moneyRange (nValueOut + txout.nValue.toInt) = true
        · have hnext := ih htotal
          simp only [bind, Except.bind, require_pos htotal]
          exact hnext
        · simp only [bind, Except.bind, require_neg htotal]
          rfl
      · rw [require_pos hneg, require_neg hlarge, require_pos hneg, require_neg hlarge]
        rfl
    · rw [require_neg hneg, require_neg hneg]
      rfl

lemma sumInputs_restricts (inputs : COutPoint → Coin) (nSpendHeight : Int) {nValueIn : Int}
    (hrange : moneyRange nValueIn) (vin : List CTxIn) :
    Restricts (sumInputs .wrapping inputs nSpendHeight nValueIn vin)
      (sumInputs .checked inputs nSpendHeight nValueIn vin) := by
  induction vin generalizing nValueIn with
  | nil => exact .refl _
  | cons txin vin ih =>
    intro value hvalue
    obtain ⟨_, hunspent, hvalue⟩ := bind_eq_ok.1 hvalue
    obtain ⟨_, hmature, hvalue⟩ := bind_eq_ok.1 hvalue
    obtain ⟨sum, hsum, hvalue⟩ := bind_eq_ok.1 hvalue
    obtain ⟨_, hmoney, hvalue⟩ := bind_eq_ok.1 hvalue
    have hboth := require_eq_ok.1 hmoney
    -- The amount was checked after it was added, so the sum was that of two amounts of money.
    rw [Arithmetic.compute_wrapping (int64Range_of_moneyRange hrange hboth.1).1] at hsum
    refine bind_eq_ok.2 ⟨_, hunspent, bind_eq_ok.2 ⟨_, hmature, bind_eq_ok.2 ⟨sum, hsum, ?_⟩⟩⟩
    exact bind_eq_ok.2 ⟨_, hmoney, ih hboth.2 value hvalue⟩

lemma sumInputs_checked {inputs : COutPoint → Coin} {nSpendHeight nValueIn value : Int}
    {vin : List CTxIn} (hrange : moneyRange nValueIn)
    (hvalue : sumInputs .checked inputs nSpendHeight nValueIn vin = .ok value) :
    value = nValueIn + (vin.map fun txin => (inputs txin.prevout).out.nValue.toInt).sum ∧
      moneyRange value := by
  induction vin generalizing nValueIn with
  | nil =>
    cases hvalue
    simp [hrange]
  | cons txin vin ih =>
    obtain ⟨_, -, hvalue⟩ := bind_eq_ok.1 hvalue
    obtain ⟨_, -, hvalue⟩ := bind_eq_ok.1 hvalue
    obtain ⟨sum, hsum, hvalue⟩ := bind_eq_ok.1 hvalue
    obtain ⟨_, hmoney, hvalue⟩ := bind_eq_ok.1 hvalue
    obtain ⟨hrest, hfinal⟩ := ih (require_eq_ok.1 hmoney).2 hvalue
    have hexact := Arithmetic.compute_checked_eq_ok hsum
    refine ⟨?_, hfinal⟩
    rw [List.map_cons, List.sum_cons]
    omega

end

namespace CCoinsViewCache

/-- The loop of `HaveInputs`. -/
def haveAll : CCoinsViewCache → List CTxIn → Bool × CCoinsViewCache
  | view, [] => (true, view)
  | view, txin :: vin =>
    let (found, view) := view.haveCoin txin.prevout
    if found then haveAll view vin else (false, view)

def haveInputs (view : CCoinsViewCache) (tx : CTransaction) : Bool × CCoinsViewCache :=
  if tx.isCoinBase then (true, view) else view.haveAll tx.vin

/-- What `AccessCoin` answers. The coin it may store on the way is dropped, so this is for coins
that were looked up before. -/
def answer (view : CCoinsViewCache) (outpoint : COutPoint) : Coin := (view.accessCoin outpoint).1

end CCoinsViewCache

/-- `CheckTxInputs`: the fee. After `HaveInputs` every coin it reads is in the cache. -/
def checkTxInputs (arith : Arithmetic) (tx : CTransaction) (inputs : CCoinsViewCache)
    (nSpendHeight : Int) : Except (Failure TxValidationResult) (Int × CCoinsViewCache) := do
  let (found, inputs) := inputs.haveInputs tx
  require (found = true) (.invalid ⟨.missingInputs, "bad-txns-inputs-missingorspent",
    "CheckTxInputs: inputs missing/spent"⟩)
  let nValueIn ← sumInputs arith inputs.answer nSpendHeight 0 tx.vin
  let valueOut ← getValueOut arith tx
  require (valueOut ≤ nValueIn) (.invalid ⟨.consensus, "bad-txns-in-belowout",
    "value in (" ++ formatMoney nValueIn ++ ") < value out (" ++ formatMoney valueOut ++ ")"⟩)
  let txfee ← arith.compute (nValueIn - valueOut)
  require (moneyRange txfee) (.invalid (txConsensus "bad-txns-fee-outofrange"))
  return (txfee, inputs)

lemma checkTxInputs_restricts (tx : CTransaction) (inputs : CCoinsViewCache) (nSpendHeight : Int) :
    Restricts (checkTxInputs .wrapping tx inputs nSpendHeight)
      (checkTxInputs .checked tx inputs nSpendHeight) := by
  intro value hvalue
  obtain ⟨_, hfound, hvalue⟩ := bind_eq_ok.1 hvalue
  obtain ⟨nValueIn, hin, hvalue⟩ := bind_eq_ok.1 hvalue
  obtain ⟨valueOut, hout, hvalue⟩ := bind_eq_ok.1 hvalue
  obtain ⟨_, hbelow, hvalue⟩ := bind_eq_ok.1 hvalue
  have hin' := sumInputs_restricts _ _ (by decide) _ _ hin
  rw [getValueOut_wrapping] at hout
  have hsub := (int64Range_of_moneyRange (sumInputs_checked (by decide) hin').2
    (getValueOut_checked hout).2.1).2
  rw [Arithmetic.compute_wrapping hsub] at hvalue
  exact bind_eq_ok.2 ⟨_, hfound, bind_eq_ok.2 ⟨_, hin', bind_eq_ok.2 ⟨_, hout,
    bind_eq_ok.2 ⟨_, hbelow, hvalue⟩⟩⟩⟩

section

variable {tx : CTransaction} {inputs next : CCoinsViewCache} {nSpendHeight txfee : Int}

/-- The inputs of an accepted transaction are there, and the lookup is all that changes the view. -/
theorem checkTxInputs_found {arith : Arithmetic}
    (hcheck : checkTxInputs arith tx inputs nSpendHeight = .ok (txfee, next)) :
    (inputs.haveInputs tx).1 ∧ next = (inputs.haveInputs tx).2 := by
  obtain ⟨_, hfound, hcheck⟩ := bind_eq_ok.1 hcheck
  obtain ⟨nValueIn, -, hcheck⟩ := bind_eq_ok.1 hcheck
  obtain ⟨valueOut, -, hcheck⟩ := bind_eq_ok.1 hcheck
  obtain ⟨_, -, hcheck⟩ := bind_eq_ok.1 hcheck
  obtain ⟨fee, -, hcheck⟩ := bind_eq_ok.1 hcheck
  obtain ⟨_, -, hcheck⟩ := bind_eq_ok.1 hcheck
  cases hcheck
  exact ⟨require_eq_ok.1 hfound, rfl⟩

/-- What an accepted transaction tells about its amounts: the fee is what its inputs exceed its
outputs by. -/
theorem checkTxInputs_checked
    (hcheck : checkTxInputs .checked tx inputs nSpendHeight = .ok (txfee, next)) :
    (inputs.haveInputs tx).1 ∧ next = (inputs.haveInputs tx).2 ∧
      txfee = (tx.vin.map fun txin => (next.answer txin.prevout).out.nValue.toInt).sum -
        outputsValue tx.vout ∧
      moneyRange txfee ∧ ∀ txout ∈ tx.vout, moneyRange txout.nValue.toInt := by
  obtain ⟨_, hfound, hcheck⟩ := bind_eq_ok.1 hcheck
  obtain ⟨nValueIn, hin, hcheck⟩ := bind_eq_ok.1 hcheck
  obtain ⟨valueOut, hout, hcheck⟩ := bind_eq_ok.1 hcheck
  obtain ⟨_, -, hcheck⟩ := bind_eq_ok.1 hcheck
  obtain ⟨fee, hfee, hcheck⟩ := bind_eq_ok.1 hcheck
  obtain ⟨_, hrange, hcheck⟩ := bind_eq_ok.1 hcheck
  cases hcheck
  obtain ⟨hsum, -⟩ := sumInputs_checked (by decide) hin
  obtain ⟨hvalue, -, hmoney⟩ := getValueOut_checked hout
  have hexact := Arithmetic.compute_checked_eq_ok hfee
  refine ⟨require_eq_ok.1 hfound, rfl, ?_, require_eq_ok.1 hrange, hmoney⟩
  rw [hexact, hsum, hvalue, zero_add]

end

def sequenceLocktimeDisableFlag : UInt32 := (1 : UInt32) <<< 31

def sequenceLocktimeTypeFlag : UInt32 := (1 : UInt32) <<< 22

def sequenceLocktimeMask : UInt32 := 0x0000ffff

def sequenceLocktimeGranularity : Nat := 9

section

variable {Result : Type}

/-- The loop of `CalculateSequenceLocks`, over the inputs with the heights of their coins. -/
def sequenceLocksFrom (block : CBlockIndex) :
    (lockPair : Int × Int) → List (CTxIn × Int) → Except (Failure Result) (Int × Int)
  | lockPair, [] => .ok lockPair
  | (nMinHeight, nMinTime), (txin, nCoinHeight) :: inputs =>
    let lock : Int := (txin.nSequence &&& sequenceLocktimeMask).toNat
    if txin.nSequence &&& sequenceLocktimeDisableFlag ≠ 0 then
      sequenceLocksFrom block (nMinHeight, nMinTime) inputs
    else if txin.nSequence &&& sequenceLocktimeTypeFlag ≠ 0 then
      match block.getAncestor (max (nCoinHeight - 1) 0) with
      | none => .error .assertion
      | some ancestor =>
        let nCoinTime := ancestor.getMedianTimePast
        sequenceLocksFrom block
          (nMinHeight, max nMinTime (nCoinTime + lock * 2 ^ sequenceLocktimeGranularity - 1))
          inputs
    else sequenceLocksFrom block (max nMinHeight (nCoinHeight + lock - 1), nMinTime) inputs

def calculateSequenceLocks (tx : CTransaction) (verifySequence : Bool) (prevHeights : List Int)
    (block : CBlockIndex) : Except (Failure Result) (Int × Int) := do
  require (prevHeights.length = tx.vin.length) .assertion
  if 2 ≤ tx.version ∧ verifySequence then
    sequenceLocksFrom block (-1, -1) (tx.vin.zip prevHeights)
  else return (-1, -1)

def evaluateSequenceLocks (block : CBlockIndex) (lockPair : Int × Int) :
    Except (Failure Result) Bool :=
  match block.pprev with
  | none => .error .assertion
  | some pprev => .ok (lockPair.1 < block.nHeight && lockPair.2 < pprev.getMedianTimePast)

def sequenceLocks (tx : CTransaction) (verifySequence : Bool) (prevHeights : List Int)
    (block : CBlockIndex) : Except (Failure Result) Bool := do
  let lockPair ← calculateSequenceLocks tx verifySequence prevHeights block
  evaluateSequenceLocks block lockPair

end

/-- `GetSigOpCount` of a spent script: for a script hash, that of the script the scriptSig pushes
last. -/
def Script.getSigOpCountWith (script scriptSig : Bytes) : Nat :=
  if !Script.isPayToScriptHash script then Script.getSigOpCount script true
  else if !Script.isPushOnly scriptSig then 0
  else Script.getSigOpCount (Script.lastPush scriptSig) true

variable {Result : Type}

variable (tx : CTransaction) (inputs : COutPoint → Coin)

/-- `GetP2SHSigOpCount`, as an `unsigned int`. -/
def getP2SHSigOpCount :
    Except (Failure Result) Nat := do
  if tx.isCoinBase then return 0
  else do
    require (∀ txin ∈ tx.vin, (inputs txin.prevout).isSpent = false) .assertion
    return (tx.vin.map fun txin =>
      let prevout := (inputs txin.prevout).out
      if Script.isPayToScriptHash prevout.scriptPubKey then
        Script.getSigOpCountWith prevout.scriptPubKey txin.scriptSig
      else 0).sum % 2 ^ 32

def getTransactionSigOpCost (flags : ScriptFlags) :
    Except (Failure Result) Nat := do
  let legacy := getLegacySigOpCount tx * witnessScaleFactor % 2 ^ 32
  if tx.isCoinBase then return legacy
  else do
    let p2sh ← if flags.has .p2sh then getP2SHSigOpCount tx inputs else pure 0
    require (∀ txin ∈ tx.vin, (inputs txin.prevout).isSpent = false) .assertion
    let witness := (tx.vin.map fun txin => countWitnessSigOps flags txin.scriptSig
      (inputs txin.prevout).out.scriptPubKey txin.scriptWitness).sum
    return legacy + p2sh * witnessScaleFactor % 2 ^ 32 + witness

end Tidecoin
