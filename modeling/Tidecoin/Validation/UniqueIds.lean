import Tidecoin.Serialize
import Tidecoin.Validation.Inflation

/-!
Why `ConnectBlock` may skip the lookup of BIP30. Where BIP34 holds from the first block on, every
coinbase starts with the height of its block, and no two heights are the start of one script. Any
other transaction spends a coin that was there: a second transaction of the same id has the same
inputs, and these are gone. So no transaction id comes twice, and `AddCoin` never meets a coin.
-/

namespace Tidecoin

open Lib List CTxIn Failure

namespace CScriptNum

lemma leToNat_absBytes {fuel absvalue : Nat} (hlt : absvalue < 256 ^ fuel) :
    leToNat (absBytes fuel absvalue) = absvalue := by
  induction fuel generalizing absvalue with
  | zero =>
    rw [absBytes, leToNat]
    omega
  | succ fuel ih =>
    rw [absBytes]
    split
    case isTrue hzero =>
      rw [leToNat, hzero]
    case isFalse =>
      have hhigh : absvalue / 256 < 256 ^ fuel := by
        omega
      have hlow : (UInt8.ofNat (absvalue % 256)).toNat = absvalue % 256 := by simp
      rw [leToNat, ih hhigh, hlow]
      omega

lemma absBytes_length_le (fuel absvalue : Nat) : (absBytes fuel absvalue).length ≤ fuel := by
  induction fuel generalizing absvalue with
  | zero => simp [absBytes]
  | succ fuel ih =>
    rw [absBytes]
    split
    · simp
    · exact Nat.succ_le_succ (ih _)

lemma serialize_of_pos {value : Int} (hpos : 0 < value) (hlt : value < 2 ^ 64) :
    leToNat (serialize value) = value.natAbs ∧ (serialize value).length ≤ 9 := by
  have hbytes : leToNat (absBytes 8 value.natAbs) = value.natAbs := by
    apply leToNat_absBytes
    omega
  have hlength := absBytes_length_le 8 value.natAbs
  have hsign : ¬value < 0 := by omega
  unfold serialize
  dsimp only
  split
  case h_1 hnone =>
    rw [getLast?_eq_none_iff.1 hnone] at hbytes
    exact ⟨hbytes, by simp⟩
  case h_2 last _ =>
    split
    · rw [leToNat_append, hbytes, length_append, length_singleton]
      exact ⟨by simp [leToNat], by omega⟩
    · exact ⟨hbytes, by omega⟩

end CScriptNum

namespace Script

/-- The number pushed by the first instruction of a script. -/
def leadingInt : Bytes → Nat
  | [] => 0
  | opcode :: pc =>
    if op1 ≤ opcode then opcode.toNat - (op1.toNat - 1) else leToNat (pc.take opcode.toNat)

lemma leadingInt_pushInt64 {n : Int} (hpos : 0 < n) (hlt : n < 2 ^ 64) (rest : Bytes) :
    leadingInt (pushInt64 n ++ rest) = n.natAbs := by
  unfold pushInt64
  by_cases hsmall : n = -1 ∨ (n ≥ 1 ∧ n ≤ 16)
  · obtain ⟨k, rfl⟩ : ∃ k : Nat, n = k := ⟨n.toNat, by omega⟩
    have hk : k < 17 := by omega
    have hk' : 0 < k := by omega
    interval_cases k <;> rfl
  · rw [if_neg hsmall, if_neg (by omega)]
    obtain ⟨hvalue, hlength⟩ := CScriptNum.serialize_of_pos hpos hlt
    have hshort : (CScriptNum.serialize n).length < opPushdata1.toNat := by
      have : opPushdata1.toNat = 76 := rfl
      omega
    have hopcode : (UInt8.ofNat (CScriptNum.serialize n).length).toNat =
        (CScriptNum.serialize n).length := by
      rw [UInt8.toNat_ofNat']
      omega
    have hdata : ¬op1 ≤ UInt8.ofNat (CScriptNum.serialize n).length := by
      rw [UInt8.le_iff_toNat_le, hopcode]
      have : op1.toNat = 81 := rfl
      omega
    rw [pushData, if_pos hshort, singleton_append, cons_append, leadingInt, if_neg hdata,
      hopcode, take_left, hvalue]

lemma pushInt64_unique {height other : Int} {script : List UInt8}
    (hheight : 0 < height ∧ height < 2 ^ 64)
    (hother : 0 < other ∧ other < 2 ^ 64) (hfirst : pushInt64 height <+: script)
    (hsecond : pushInt64 other <+: script) : height = other := by
  obtain ⟨rest, rfl⟩ := hfirst
  obtain ⟨rest', heq⟩ := hsecond
  have hread := leadingInt_pushInt64 hheight.1 hheight.2 rest
  rw [← heq, leadingInt_pushInt64 hother.1 hother.2 rest'] at hread
  omega

end Script

section

open Lib.Reader

namespace CTransaction

variable {tx : CTransaction}

lemma size_of_checkTransaction (hcheck : checkTransaction tx = .ok ()) :
    (tx.serialize false).length ≤ maxSize := by
  obtain ⟨-, -, -, hsize⟩ := checkTransaction_ok hcheck
  have hmax : maxBlockWeight ≤ witnessScaleFactor * maxSize := by decide
  rw [witnessScaleFactor] at hsize hmax
  omega

/-- The script of the first input, where a coinbase has the height. -/
def firstScript (tx : CTransaction) : Bytes := (tx.vin.head?.map CTxIn.scriptSig).getD []

variable {other : CTransaction}

section

variable (hvin : tx.vin.map stripWitness = other.vin.map stripWitness)
include hvin

lemma prevouts_of_vin : tx.vin.map prevout = other.vin.map prevout := by
  have hmap := congrArg (map prevout) hvin
  rwa [map_map, map_map] at hmap

lemma firstScript_of_vin : tx.firstScript = other.firstScript := by
  have hmap := congrArg (fun vin => vin.head?.map scriptSig) hvin
  simp only [head?_map, Option.map_map] at hmap
  exact congrArg (fun script => script.getD []) hmap

end

lemma isCoinBase_iff (tx : CTransaction) :
    tx.isCoinBase ↔ ∃ prevout, tx.vin.map CTxIn.prevout = [prevout] ∧ prevout.isNull := by
  obtain ⟨vin, vout, version, nLockTime⟩ := tx
  cases vin with
  | nil => simp [isCoinBase]
  | cons txin vin =>
    cases vin with
    | nil => simp [isCoinBase]
    | cons next vin => simp [isCoinBase]

lemma isCoinBase_of_vin (hvin : tx.vin.map stripWitness = other.vin.map stripWitness) :
    tx.isCoinBase = other.isCoinBase := by
  rw [Bool.eq_iff_iff, isCoinBase_iff, isCoinBase_iff, prevouts_of_vin hvin]

end CTransaction

end

variable [Crypto]

/-- The ids of these transactions do not collide. -/
def CollisionFree (txs : List CTransaction) : Prop :=
  ∀ tx ∈ txs, ∀ other ∈ txs, tx.getHash = other.getHash → tx.serialize false = other.serialize false

section

variable {txid : Uint256} {nHeight : Int} {fCoinbase : Bool} {index : Nat} {vout : List CTxOut}

omit [Crypto] in
lemma createdFrom_outpoint {outpoint : COutPoint}
    (hmem : outpoint ∈ (createdFrom txid nHeight fCoinbase index vout).map Prod.fst) :
    outpoint.hash = txid ∧ ∃ n, index ≤ n ∧ n < index + vout.length ∧
      outpoint.n = UInt32.ofNat n := by
  induction vout generalizing index with
  | nil => cases hmem
  | cons txout vout ih =>
    have hlater : outpoint ∈ (createdFrom txid nHeight fCoinbase (index + 1) vout).map Prod.fst →
        outpoint.hash = txid ∧ ∃ n, index ≤ n ∧ n < index + (txout :: vout).length ∧
          outpoint.n = UInt32.ofNat n := by
      intro hrest
      obtain ⟨hhash, n, hge, hlt, hn⟩ := ih hrest
      rw [length_cons]
      exact ⟨hhash, n, by omega, by omega, hn⟩
    rw [createdFrom] at hmem
    split at hmem
    · exact hlater hmem
    · rw [map_cons, mem_cons] at hmem
      rcases hmem with rfl | hrest
      · exact ⟨rfl, index, le_rfl, by simp, rfl⟩
      · exact hlater hrest

omit [Crypto] in
lemma createdFrom_nodup (hindex : index + vout.length ≤ 2 ^ 32) :
    ((createdFrom txid nHeight fCoinbase index vout).map Prod.fst).Nodup := by
  induction vout generalizing index with
  | nil => exact nodup_nil
  | cons txout vout ih =>
    rw [length_cons] at hindex
    have hrest : ((createdFrom txid nHeight fCoinbase (index + 1) vout).map Prod.fst).Nodup := by
      apply ih
      omega
    rw [createdFrom]
    split
    · exact hrest
    · rw [map_cons, nodup_cons]
      refine ⟨?_, hrest⟩
      intro hmem
      obtain ⟨-, n, hge, hlt, hn⟩ := createdFrom_outpoint hmem
      have hnat := congrArg UInt32.toNat hn
      simp only [UInt32.toNat_ofNat'] at hnat
      omega

end

/-- The transactions applied to a store that was empty, below a height. Every id is new, every coin
comes from one of them, and what they have spent is gone. -/
structure Ledger (height : Int) (done : List CTransaction) (utxos : UtxoSet) : Prop where
  nodup : (done.map CTransaction.getHash).Nodup
  created : ∀ outpoint coin, utxos outpoint = some coin →
    outpoint.hash ∈ done.map CTransaction.getHash
  spent : ∀ tx ∈ done, tx.isCoinBase = false → ∀ txin ∈ tx.vin,
    txin.prevout.hash ∈ done.map CTransaction.getHash ∧ utxos txin.prevout = none
  checked : ∀ tx ∈ done, checkTransaction tx = .ok ()
  height_pushed : ∀ tx ∈ done, tx.isCoinBase = true → ∃ h, 0 < h ∧ h < height ∧
    Script.pushInt64 h <+: tx.firstScript

namespace Ledger

variable {height : Int} {done : List CTransaction} {utxos : UtxoSet} {tx : CTransaction}

lemma empty (height : Int) : Ledger height [] fun _ => none where
  nodup := nodup_nil
  created _ _ hcoin := nomatch hcoin
  spent _ hmem := absurd hmem not_mem_nil
  checked _ hmem := absurd hmem not_mem_nil
  height_pushed _ hmem := absurd hmem not_mem_nil

variable {txs : List CTransaction}

lemma same_vin (hfree : CollisionFree txs) (hdone : ∀ other ∈ done, other ∈ txs) (hmem : tx ∈ txs)
    (hcheck : checkTransaction tx = .ok ()) (hid : tx.getHash ∈ done.map CTransaction.getHash) :
    ∃ other ∈ done, tx.vin.map CTransaction.stripWitness =
      other.vin.map CTransaction.stripWitness := by
  obtain ⟨other, hother, hhash⟩ := mem_map.1 hid
  refine ⟨other, hother, ?_⟩
  apply CTransaction.vin_of_serialize_false (CTransaction.size_of_checkTransaction hcheck)
  exact hfree tx hmem other (hdone other hother) hhash.symm

section

variable (hledger : Ledger height done utxos) (hfree : CollisionFree txs)
    (hdone : ∀ other ∈ done, other ∈ txs) (hmem : tx ∈ txs) (hcheck : checkTransaction tx = .ok ())
include hledger hfree hdone hmem hcheck

lemma coinbase_new (hcoinbase : tx.isCoinBase) (hpos : 0 < height) (hlt : height < 2 ^ 64)
    (hpush : Script.pushInt64 height <+: tx.firstScript) :
    tx.getHash ∉ done.map CTransaction.getHash := by
  intro hid
  obtain ⟨other, hother, hvin⟩ := same_vin hfree hdone hmem hcheck hid
  rw [CTransaction.isCoinBase_of_vin hvin] at hcoinbase
  obtain ⟨h, hpos', hlt', hpush'⟩ := hledger.height_pushed other hother hcoinbase
  rw [← CTransaction.firstScript_of_vin hvin] at hpush'
  have hsame := Script.pushInt64_unique ⟨hpos, hlt⟩ ⟨hpos', by omega⟩ hpush hpush'
  omega

lemma spending_new
    (hcoinbase : tx.isCoinBase = false)
    (hpresent : ∀ txin ∈ tx.vin, ∃ coin, utxos txin.prevout = some coin) :
    tx.getHash ∉ done.map CTransaction.getHash := by
  intro hid
  obtain ⟨other, hother, hvin⟩ := same_vin hfree hdone hmem hcheck hid
  rw [CTransaction.isCoinBase_of_vin hvin] at hcoinbase
  obtain ⟨txin, htxin⟩ := exists_mem_of_ne_nil _ (checkTransaction_ok hcheck).1
  obtain ⟨coin, hcoin⟩ := hpresent txin htxin
  -- The earlier transaction has spent the coin that is there.
  have hprevout : txin.prevout ∈ other.vin.map prevout := by
    rw [← CTransaction.prevouts_of_vin hvin]
    exact mem_map_of_mem htxin
  obtain ⟨spent, hspent, heq⟩ := mem_map.1 hprevout
  have hgone := (hledger.spent other hother hcoinbase spent hspent).2
  rw [heq, hcoin] at hgone
  cases hgone

end

omit [Crypto] in
lemma takeInputs_present (hcheck : checkTransaction tx = .ok ())
    (hpresent : tx.isCoinBase = false → ∀ txin ∈ tx.vin, ∃ coin, utxos txin.prevout = some coin) :
    ∃ txundo rest, takeInputs utxos tx = some (txundo, rest) ∧
      (∀ outpoint coin, rest outpoint = some coin → utxos outpoint = some coin) ∧
      (tx.isCoinBase = false → ∀ txin ∈ tx.vin, rest txin.prevout = none) := by
  rw [takeInputs]
  split
  case isTrue hcoinbase =>
    refine ⟨[], utxos, rfl, fun _ _ hcoin => hcoin, fun hfalse => ?_⟩
    rw [hcoinbase] at hfalse
    cases hfalse
  case isFalse hcoinbase =>
    have hkeys : ∀ key ∈ tx.vin.map prevout, ∃ coin, utxos key = some coin := by
      intro key hkey
      obtain ⟨txin, htxin, rfl⟩ := mem_map.1 hkey
      exact hpresent (Bool.eq_false_iff.2 hcoinbase) txin htxin
    obtain ⟨txundo, rest, htake, hrest⟩ :=
      Store.exists_takeAll (checkTransaction_ok hcheck).2.1 hkeys
    refine ⟨txundo, rest, htake, (Store.takeAll_mem htake).2, fun _ txin htxin => ?_⟩
    rw [hrest, if_pos (mem_map_of_mem htxin)]

lemma apply {next : Int} (hledger : Ledger height done utxos) (hnext : height ≤ next)
    (hcheck : checkTransaction tx = .ok ())
    (hpresent : tx.isCoinBase = false → ∀ txin ∈ tx.vin, ∃ coin, utxos txin.prevout = some coin)
    (hpush : tx.isCoinBase → ∃ h, 0 < h ∧ h < next ∧ Script.pushInt64 h <+: tx.firstScript)
    (hnew : tx.getHash ∉ done.map CTransaction.getHash) (nHeight : Int) :
    ∃ txundo rest, applyTransaction utxos tx nHeight = some (txundo, rest) ∧
      Ledger next (done ++ [tx]) rest := by
  obtain ⟨txundo, spent, htake, hkept, hgone⟩ := takeInputs_present hcheck hpresent
  obtain ⟨-, -, hlength, -⟩ :=
    CTransaction.lengths_of_size (CTransaction.size_of_checkTransaction hcheck)
  obtain ⟨-, -, hvout, -⟩ := checkTransaction_ok hcheck
  have hids : (done ++ [tx]).map CTransaction.getHash =
      done.map CTransaction.getHash ++ [tx.getHash] := by
    rw [map_append, map_singleton]
  -- No outpoint of the transaction is taken.
  have hfresh : ∀ outpoint : COutPoint, outpoint.hash = tx.getHash → spent outpoint = none := by
    intro outpoint hhash
    refine Option.eq_none_iff_forall_ne_some.2 fun coin hcoin => hnew ?_
    rw [← hhash]
    exact hledger.created outpoint coin (hkept outpoint coin hcoin)
  have hnodup : ((tx.createdCoins nHeight).map Prod.fst).Nodup := by
    apply createdFrom_nodup
    rw [maxSize] at hlength
    omega
  obtain ⟨rest, hput⟩ := Store.exists_putAll hnodup
    fun outpoint hmem => hfresh outpoint (createdFrom_outpoint hmem).1
  have hvalues : ∀ txout ∈ tx.vout, txout.isNull = false := by
    intro txout hmem
    have hmoney := (moneyRange_iff.1 (checkOutputs_moneyRange hvout txout hmem)).1
    rw [CTxOut.isNull, decide_eq_false_iff_not]
    intro hnull
    rw [hnull] at hmoney
    exact absurd hmoney (by decide)
  -- An outpoint that is not of the transaction has the coin that was left.
  have hother : ∀ (outpoint : COutPoint) coin, outpoint.hash ∈ done.map CTransaction.getHash →
      rest outpoint = some coin → spent outpoint = some coin := by
    intro outpoint coin hold hcoin
    refine (Store.putAll_mem hput hcoin).resolve_right fun hmem => hnew ?_
    rw [← (createdFrom_outpoint (mem_map_of_mem hmem)).1]
    exact hold
  refine ⟨txundo, rest, applyTransaction_eq_some.2 ⟨hvalues, spent, htake, hput⟩, ?_⟩
  refine ⟨?_, ?_, ?_, ?_, ?_⟩
  · rw [hids, ← concat_eq_append]
    exact hledger.nodup.concat hnew
  · intro outpoint coin hcoin
    rw [hids, mem_append, mem_singleton]
    rcases Store.putAll_mem hput hcoin with hbefore | hmem
    · exact .inl (hledger.created outpoint coin (hkept outpoint coin hbefore))
    · exact .inr (createdFrom_outpoint (mem_map_of_mem hmem)).1
  · rw [hids]
    refine forall_mem_append.2 ⟨fun other hdone hcoinbase txin htxin => ?_,
      forall_mem_singleton.2 fun hcoinbase txin htxin => ?_⟩
    · obtain ⟨hold, hnone⟩ := hledger.spent other hdone hcoinbase txin htxin
      refine ⟨mem_append_left _ hold, Option.eq_none_iff_forall_ne_some.2 fun coin hcoin => ?_⟩
      rw [hkept _ _ (hother _ _ hold hcoin)] at hnone
      cases hnone
    · obtain ⟨coin, hcoin⟩ := hpresent hcoinbase txin htxin
      have hold := hledger.created txin.prevout coin hcoin
      refine ⟨mem_append_left _ hold, Option.eq_none_iff_forall_ne_some.2 fun coin hcoin => ?_⟩
      have hleft := hother _ _ hold hcoin
      rw [hgone hcoinbase txin htxin] at hleft
      cases hleft
  · exact forall_mem_append.2 ⟨hledger.checked, forall_mem_singleton.2 hcheck⟩
  · refine forall_mem_append.2 ⟨fun other hdone hcoinbase => ?_, forall_mem_singleton.2 hpush⟩
    obtain ⟨h, hpos, hlt, hprefixed⟩ := hledger.height_pushed other hdone hcoinbase
    exact ⟨h, hpos, hlt.trans_le hnext, hprefixed⟩

end Ledger

/-- The failure is one of the coin cache. -/
def Failure.OfCoins {Result : Type} : Failure Result → Prop
  | .coins _ => True
  | _ => False

section

omit [Crypto]

variable {Result : Type} (arith : Arithmetic)

lemma compute_soft (exact : Int) :
    Soft OfCoins (arith.compute exact : Except (Failure Result) Int) := by
  unfold Arithmetic.compute
  split
  · exact .ok _
  · exact .error id

variable (tx : CTransaction) (inputs : COutPoint → Coin) (flags : ScriptFlags)

lemma getValueOut_soft : Soft OfCoins (getValueOut arith tx : Except (Failure Result) Int) := by
  have hloop : ∀ (vout : List CTxOut) (nValueOut : Int),
      Soft OfCoins (valueOutFrom arith nValueOut vout : Except (Failure Result) Int) := by
    intro vout
    induction vout with
    | nil => exact fun nValueOut => .ok _
    | cons txOut vout ih =>
      intro nValueOut
      apply Soft.bind (.require id _)
      intro _
      apply Soft.bind (compute_soft arith _)
      intro sum
      exact .bind (.require id _) fun _ => ih sum
  apply Soft.bind (hloop _ _)
  intro nValueOut
  exact .bind (.require id _) fun _ => .ok _

lemma checkTxInputs_soft (inputs : CCoinsViewCache) (nSpendHeight : Int) :
    Soft OfCoins (checkTxInputs arith tx inputs nSpendHeight) := by
  have hloop : ∀ (answer : COutPoint → Coin) (vin : List CTxIn) (nValueIn : Int),
      Soft OfCoins (sumInputs arith answer nSpendHeight nValueIn vin) := by
    intro answer vin
    induction vin with
    | nil => exact fun nValueIn => .ok _
    | cons txin vin ih =>
      intro nValueIn
      apply Soft.bind (.require id _)
      intro _
      apply Soft.bind (.require id _)
      intro _
      apply Soft.bind (compute_soft arith _)
      intro sum
      exact .bind (.require id _) fun _ => ih sum
  apply Soft.bind (.require id _)
  intro _
  apply Soft.bind (hloop _ _ _)
  intro nValueIn
  apply Soft.bind (getValueOut_soft arith tx)
  intro valueOut
  apply Soft.bind (.require id _)
  intro _
  apply Soft.bind (compute_soft arith _)
  intro txfee
  exact .bind (.require id _) fun _ => .ok _

lemma sequenceLocks_soft (verifySequence : Bool) (prevHeights : List Int) (block : CBlockIndex) :
    Soft OfCoins
      (sequenceLocks tx verifySequence prevHeights block : Except (Failure Result) Bool) := by
  have hloop : ∀ (inputs : List (CTxIn × Int)) (lockPair : Int × Int), Soft OfCoins
        (sequenceLocksFrom block lockPair inputs : Except (Failure Result) (Int × Int)) := by
    intro inputs
    induction inputs with
    | nil => exact fun lockPair => .ok _
    | cons input inputs ih =>
      intro lockPair
      unfold sequenceLocksFrom
      split
      · exact ih _
      · split
        · split
          · exact .error id
          · exact ih _
        · exact ih _
  apply Soft.bind
  · apply Soft.bind (.require id _)
    intro _
    exact .ite (hloop _ _) (.ok _)
  · intro lockPair
    unfold evaluateSequenceLocks
    split
    · exact .error id
    · exact .ok _

lemma getTransactionSigOpCost_soft :
    Soft OfCoins (getTransactionSigOpCost tx inputs flags : Except (Failure Result) Nat) := by
  have hp2sh : Soft OfCoins (getP2SHSigOpCount tx inputs : Except (Failure Result) Nat) :=
    .ite (.ok _) (.bind (.require id _) fun _ => .ok _)
  apply Soft.ite (.ok _)
  apply Soft.ite
  · exact .bind hp2sh fun _ => .bind (.require id _) fun _ => .ok _
  · exact .bind (.ok 0) fun _ => .bind (.require id _) fun _ => .ok _

lemma inBlock_ofCoins {inBlock : TxInvalid → BlockInvalid} {failure : Failure TxValidationResult}
    (hcoins : (failure.inBlock inBlock).OfCoins) : failure.OfCoins := by
  cases failure with
  | coins => exact trivial
  | _ => exact hcoins

lemma checkReward_soft (options : ConnectOptions) (pindex : CBlockIndex) (block : CBlock)
    (nFees : Int) : Soft OfCoins (checkReward arith options pindex block nFees) := by
  apply Soft.bind (compute_soft arith _)
  intro blockReward
  split
  · exact .error id
  · exact .bind (getValueOut_soft arith _) fun _ => .require id _

variable [Crypto]

lemma checkInputScripts_soft [TransactionChecker] (cacheFullScriptStore pvChecks : Bool)
    (validationCache : ValidationCache) : Soft OfCoins
      (checkInputScripts tx inputs flags cacheFullScriptStore pvChecks validationCache) := by
  have hchecks : ∀ checks : List InputCheck, Soft OfCoins (runChecks flags checks) := by
    intro checks
    induction checks with
    | nil => exact .ok _
    | cons check checks ih =>
      rw [runChecks]
      split
      · exact ih
      · exact .error id
  apply Soft.ite (.ok _)
  apply Soft.ite (.ok _)
  apply Soft.bind
  · rw [spentOutputs_eq]
    exact .ite (.ok _) (.error id)
  · intro spentOutputs
    exact .ite (.ok _) (.bind (hchecks _) fun _ => .ok _)

lemma completeChecks_soft (checks : List InputCheck) :
    Soft OfCoins (completeChecks flags checks) := by
  induction checks with
  | nil => exact .ok _
  | cons check checks ih =>
    rw [completeChecks]
    split
    · exact ih
    · exact .error id

lemma checkAgain_soft (params : Params) (block : CBlock) (pindex : CBlockIndex) (fJustCheck : Bool)
    (cache : BlockCache) : Soft OfCoins (checkAgain params block pindex fJustCheck cache) := by
  unfold checkAgain
  split
  · exact .ok _
  · exact .ite (.error id) (.error id)

end

variable {view : CCoinsViewCache}

omit [Crypto] in
lemma CCoinsViewCache.Reads.represents {next : CCoinsViewCache} {utxos : Store COutPoint Coin}
    (hreads : Reads view next)
    (hview : view.Represents utxos) : next.Represents utxos := by
  refine ⟨⟨?_, hreads.spentDirty hview.valid.spentDirty⟩, hreads.coinsEq.trans hview.coinsEq⟩
  intro outpoint entry hentry hfresh
  have hhidden : next.hidden outpoint = none := by
    rw [hreads.hidden_eq, hview.valid.hidden_eq]
  simpa only [hidden, hentry, hfresh, if_true] using hhidden

section

open CCoinsViewCache

variable {arith : Arithmetic} {options : ConnectOptions} {pindex : CBlockIndex} {fJustCheck : Bool}
  {height : Int} {done txs : List CTransaction} {utxos : UtxoSet}

variable {state : ConnectState} {tx : CTransaction}

lemma connectInputs_soft (tx : CTransaction) (state : ConnectState) :
    Soft OfCoins (connectInputs arith options pindex tx state) := by
  apply Soft.ite (.ok _)
  apply Soft.bind ((checkTxInputs_soft arith tx _ _).mapError fun _ => inBlock_ofCoins)
  rintro ⟨txfee, view⟩
  apply Soft.bind (compute_soft arith _)
  intro nFees
  apply Soft.bind (.require id _)
  intro _
  apply Soft.bind (sequenceLocks_soft _ _ _ _)
  intro final
  exact .bind (.require id _) fun _ => .ok _

variable [TransactionChecker]

lemma connectScripts_soft (tx : CTransaction) (state : ConnectState) :
    Soft OfCoins (connectScripts options pindex fJustCheck tx state) := by
  refine .ite ?_ (.ok _)
  apply Soft.bind ((checkInputScripts_soft _ _ _ _ _ _).mapError fun _ => inBlock_ofCoins)
  exact fun _ => .ok _

/-- Where a transaction of the block stands: the coinbase starts with the height of the block and
takes the ledger to the next one. -/
structure Placed (height next : Int) (txs : List CTransaction) (tx : CTransaction) : Prop where
  mem : tx ∈ txs
  checked : checkTransaction tx = .ok ()
  heightLe : height ≤ next
  coinbase : tx.isCoinBase = true → 0 < height ∧ height < 2 ^ 64 ∧ height < next ∧
    Script.pushInt64 height <+: tx.firstScript

variable {next : Int}

omit [TransactionChecker] in
lemma Ledger.place (hledger : Ledger height done utxos) (hfree : CollisionFree txs)
    (hdone : ∀ other ∈ done, other ∈ txs) (hplaced : Placed height next txs tx)
    (hpresent : tx.isCoinBase = false → ∀ txin ∈ tx.vin, ∃ coin, utxos txin.prevout = some coin)
    (nHeight : Int) : ∃ txundo rest, applyTransaction utxos tx nHeight = some (txundo, rest) ∧
      Ledger next (done ++ [tx]) rest := by
  have hnew : tx.getHash ∉ done.map CTransaction.getHash := by
    cases hcoinbase : tx.isCoinBase with
    | true =>
      obtain ⟨hpos, hlt, -, hpush⟩ := hplaced.coinbase hcoinbase
      exact hledger.coinbase_new hfree hdone hplaced.mem hplaced.checked hcoinbase hpos hlt hpush
    | false =>
      exact hledger.spending_new hfree hdone hplaced.mem hplaced.checked hcoinbase
        (hpresent hcoinbase)
  apply hledger.apply hplaced.heightLe hplaced.checked hpresent ?_ hnew
  intro hcoinbase
  obtain ⟨hpos, -, hnext, hpush⟩ := hplaced.coinbase hcoinbase
  exact ⟨height, hpos, hnext, hpush⟩

variable (arith options pindex fJustCheck)

/-- A run over transactions in which nothing fails in the coin cache, and which does what the
specification says if it succeeds. -/
def Extends (next : Int) (done : List CTransaction) (utxos : UtxoSet) (state : ConnectState)
    (vtx : List CTransaction) : Prop :=
  Soft Failure.OfCoins (vtx.foldlM (connectTransaction arith options pindex fJustCheck) state) ∧
    ∀ after, vtx.foldlM (connectTransaction arith options pindex fJustCheck) state = .ok after →
      ∃ vtxundo rest, applyTransactions utxos vtx pindex.nHeight = some (vtxundo, rest) ∧
        after.view.Represents rest ∧ Ledger next (done ++ vtx) rest

variable {arith options pindex fJustCheck}

section

variable (hview : state.view.Represents utxos) (hledger : Ledger height done utxos)
    (hfree : CollisionFree txs) (hdone : ∀ other ∈ done, other ∈ txs)
include hview hledger hfree hdone

section

variable (hplaced : Placed height next txs tx)
include hplaced

lemma connectTransaction_yields :
    Yields OfCoins (connectTransaction arith options pindex fJustCheck state tx) fun middle =>
      ∃ txundo rest, applyTransaction utxos tx pindex.nHeight = some (txundo, rest) ∧
        middle.view.Represents rest ∧ Ledger next (done ++ [tx]) rest := by
  refine .bind (connectInputs_soft tx state).yields fun checked hinputs => ?_
  obtain ⟨hreads, hpresent⟩ := connectInputs_present hinputs
  rw [hreads.coinsEq, hview.coinsEq] at hpresent
  obtain ⟨txundo, rest, happly, hnext⟩ := hledger.place hfree hdone hplaced hpresent pindex.nHeight
  obtain ⟨view, hupdate, hrest⟩ := updateCoins_refines (hreads.represents hview) happly
  have hsigops : Soft OfCoins (connectSigOps options pindex tx checked) :=
    .bind (getTransactionSigOpCost_soft _ _ _) fun _ => .bind (.require id _) fun _ => .ok _
  refine .bind hsigops.yields fun counted hcounted => ?_
  refine .bind (connectScripts_soft tx counted).yields fun verified hverified => ?_
  rw [connectCoins, (connectScripts_frame hverified).1, (connectSigOps_frame hcounted).1, hupdate]
  exact .ok ⟨txundo, rest, happly, hrest, hnext⟩

lemma Extends.cons {last : Int} {vtx : List CTransaction}
    (htail : ∀ (middle : ConnectState) (rest : UtxoSet), middle.view.Represents rest →
      Ledger next (done ++ [tx]) rest → (∀ other ∈ done ++ [tx], other ∈ txs) →
        Extends arith options pindex fJustCheck last (done ++ [tx]) rest middle vtx) :
    Extends arith options pindex fJustCheck last done utxos state (tx :: vtx) := by
  have hdone' : ∀ other ∈ done ++ [tx], other ∈ txs :=
    forall_mem_append.2 ⟨hdone, forall_mem_singleton.2 hplaced.mem⟩
  refine Yields.bind (connectTransaction_yields hview hledger hfree hdone hplaced) ?_
  rintro middle ⟨txundo, rest, happly, hrest, hnext⟩
  refine Yields.imp (htail middle rest hrest hnext hdone') ?_
  rintro after ⟨vtxundo, final, hrest, hfinal, hend⟩
  rw [append_assoc, singleton_append] at hend
  exact ⟨txundo :: vtxundo, final,
    applyTransactions_cons.2 ⟨txundo, vtxundo, rest, happly, hrest, rfl⟩, hfinal, hend⟩

end

lemma connectTransactions_extends {vtx : List CTransaction}
    (hvtx : ∀ tx ∈ vtx, tx ∈ txs ∧ tx.isCoinBase = false ∧ checkTransaction tx = .ok ()) :
    Extends arith options pindex fJustCheck height done utxos state vtx := by
  induction vtx generalizing state done utxos with
  | nil =>
    refine Yields.ok ?_
    rw [append_nil]
    exact ⟨[], utxos, rfl, hview, hledger⟩
  | cons tx vtx ih =>
    obtain ⟨⟨hmem, hcoinbase, hcheck⟩, hothers⟩ := forall_mem_cons.1 hvtx
    have hplaced : Placed height height txs tx := by
      refine ⟨hmem, hcheck, le_rfl, fun htrue => ?_⟩
      rw [hcoinbase] at htrue
      cases htrue
    apply Extends.cons hview hledger hfree hdone hplaced
    intro middle rest hrest hnext hdone'
    exact ih hrest hnext hdone' hothers

lemma connectBlockTransactions_extends {block : CBlock}
    (hvtx : ∀ tx ∈ block.vtx, tx ∈ txs) (hbody : checkBlockBody block = .ok ())
    (hheight : 0 < height ∧ height < 2 ^ 64)
    (hpush : ∀ coinbase ∈ block.vtx.head?, Script.pushInt64 height <+: coinbase.firstScript) :
    Extends arith options pindex fJustCheck (height + 1) done utxos state block.vtx := by
  obtain ⟨coinbase, vtx, heq, hcoinbase, hothers, hchecks⟩ := checkBlockBody_ok hbody
  rw [heq] at hvtx hchecks hpush ⊢
  obtain ⟨hmem, hmems⟩ := forall_mem_cons.1 hvtx
  obtain ⟨hcheck, hrest⟩ := forall_mem_cons.1 hchecks
  have hplaced : Placed height (height + 1) txs coinbase :=
    ⟨hmem, hcheck, by omega, fun _ => ⟨hheight.1, hheight.2, by omega, hpush coinbase rfl⟩⟩
  apply Extends.cons hview hledger hfree hdone hplaced
  intro middle rest hview' hledger' hdone'
  apply connectTransactions_extends hview' hledger' hfree hdone'
  exact fun tx htx => ⟨hmems tx htx, hothers tx htx, hrest tx htx⟩

end

lemma connectBody_extends {block : CBlock} {view : CCoinsViewCache}
    {validationCache : ValidationCache}
    (hextends : Extends arith options pindex fJustCheck next done utxos ⟨view, 0, 0, [], [],
      validationCache⟩ block.vtx) :
    Yields OfCoins (connectBody arith options false block pindex fJustCheck view validationCache)
      fun state => ∃ vtxundo rest, applyTransactions utxos block.vtx pindex.nHeight =
        some (vtxundo, rest) ∧
        state.view.Represents rest ∧ Ledger next (done ++ block.vtx) rest := by
  refine .bind (Soft.require id _).yields fun _ _ => ?_
  refine .bind (Soft.ok view).yields fun scanned hsame => ?_
  cases hsame
  refine .bind hextends fun state hstate => ?_
  refine .bind (checkReward_soft arith options pindex block state.nFees).yields fun _ _ => ?_
  exact .bind (completeChecks_soft _ _).yields fun _ _ => .ok hstate

end

/-- A block on top of a chain where BIP34 holds from the first block on: it passes
`ContextualCheckBlock` on its predecessor, and its height is an `int`. -/
structure ConnectCall.OnTopOf (pindexPrev : CBlockIndex) (call : ConnectCall) : Prop where
  bip34Height : call.options.params.bip34Height = 1
  pprev : call.pindex.pprev = some pindexPrev
  nHeight : call.pindex.nHeight = pindexPrev.nHeight + 1
  nHeightLt : call.pindex.nHeight < 2 ^ 31
  notGenesis : call.block.getHash ≠ call.options.params.hashGenesisBlock
  contextual : (contextualCheckBlock call.block call.options.params (some pindexPrev)
    call.cache).1 = .ok ()

/-- The blocks follow each other. -/
def ChainFrom : CBlockIndex → List ConnectCall → Prop
  | _, [] => True
  | pindexPrev, call :: calls => call.OnTopOf pindexPrev ∧ ChainFrom call.pindex calls

/-- The transactions of the blocks. -/
def chainTransactions (calls : List ConnectCall) : List CTransaction :=
  calls.flatMap fun call => call.block.vtx

/-- What the blocks do to the unspent outputs, see `applyTransaction`: it is an error if a coin is
created where there is one. -/
def applyBlocks : UtxoSet → List ConnectCall → Option UtxoSet
  | utxos, [] => some utxos
  | utxos, call :: calls => do
      let (_, utxos) ← applyTransactions utxos call.block.vtx call.pindex.nHeight
      applyBlocks utxos calls

variable {pindexPrev : CBlockIndex}

lemma ConnectCall.OnTopOf.height_pushed {call : ConnectCall} (htop : call.OnTopOf pindexPrev)
    (hpos : 0 < call.pindex.nHeight) :
    ∀ coinbase ∈ call.block.vtx.head?, Script.pushInt64 call.pindex.nHeight <+:
      coinbase.firstScript := by
  have hcontext : checkBlockContext call.block call.options.params (some pindexPrev) = .ok () := by
    have hcheck := htop.contextual
    unfold contextualCheckBlock at hcheck
    split at hcheck
    · cases hcheck
    case h_2 hok => exact hok
  obtain ⟨_, -, hcontext⟩ := bind_eq_ok.1 hcontext
  have hactive : deploymentActiveAfter (some pindexPrev) call.options.params.bip34Height := by
    rw [deploymentActiveAfter, htop.bip34Height, heightAfter, ← htop.nHeight]
    exact decide_eq_true hpos
  have hpushed := require_eq_ok.1 hcontext hactive
  intro coinbase hcoinbase
  rw [Option.mem_def.1 hcoinbase, heightAfter, ← htop.nHeight] at hpushed
  exact hpushed

variable [TransactionChecker]

/-- `ConnectBlock` without the lookup of BIP30, for the blocks in order, while it accepts them. -/
def connectUnscanned (arith : Arithmetic) : List ConnectCall → CCoinsViewCache → ValidationCache →
    Except (Failure BlockValidationResult) CCoinsViewCache
  | [], view, _ => .ok view
  | call :: calls, view, validationCache => do
      let connected ← connectBlockWith arith call.options false call.block call.cache call.pindex
        call.fJustCheck view validationCache
      connectUnscanned arith calls connected.view connected.validationCache

open CCoinsViewCache in
lemma connectBlockWith_ledger (arith : Arithmetic) (validationCache : ValidationCache)
    {call : ConnectCall}
    {done txs : List CTransaction} {utxos : Store COutPoint Coin} (hview : view.Represents utxos)
    (hledger : Ledger call.pindex.nHeight done utxos) (hfree : CollisionFree txs)
    (hdone : ∀ other ∈ done, other ∈ txs) (hvtx : ∀ tx ∈ call.block.vtx, tx ∈ txs)
    (htop : call.OnTopOf pindexPrev) (hpos : 0 < call.pindex.nHeight) :
    Yields OfCoins (connectBlockWith arith call.options false call.block call.cache call.pindex
        call.fJustCheck view validationCache) fun connected => ∃ vtxundo rest,
        applyTransactions utxos call.block.vtx call.pindex.nHeight = some (vtxundo, rest) ∧
        connected.view.Represents rest ∧ Ledger (call.pindex.nHeight + 1) (done ++ call.block.vtx)
          rest := by
  have hbest := (Reads.getBestBlock view).represents hview
  have hlt : call.pindex.nHeight < 2 ^ 64 := htop.nHeightLt.trans (by decide)
  have hextends : checkBlockBody call.block = .ok () →
      Extends arith call.options call.pindex call.fJustCheck (call.pindex.nHeight + 1) done utxos
        ⟨view.getBestBlock.2, 0, 0, [], [], validationCache⟩ call.block.vtx :=
    fun hbody => connectBlockTransactions_extends hbest hledger hfree hdone hvtx hbody ⟨hpos, hlt⟩
      (htop.height_pushed hpos)
  refine .bind (Soft.require id _).yields fun _ _ => ?_
  refine .bind (checkAgain_soft _ _ _ _ _).yields fun cache hagain => ?_
  refine .bind (Soft.require id _).yields fun _ _ => ?_
  rw [if_neg htop.notGenesis]
  refine .bind (connectBody_extends (hextends (checkAgain_body call.cacheSound hagain))) ?_
  rintro state ⟨vtxundo, rest, happly, hrest, hnext⟩
  split
  · exact .ok ⟨vtxundo, rest, happly, hrest, hnext⟩
  · exact .bind (Soft.require id _).yields fun _ _ =>
      .ok ⟨vtxundo, rest, happly, hrest.setBestBlock _, hnext⟩

lemma connectUnscanned_ledger (arith : Arithmetic) (validationCache : ValidationCache)
    {calls : List ConnectCall} {done txs : List CTransaction} {utxos : Store COutPoint Coin}
    (hview : view.Represents utxos) (hledger : Ledger (pindexPrev.nHeight + 1) done utxos)
    (hfree : CollisionFree txs) (hdone : ∀ other ∈ done, other ∈ txs)
    (hcalls : ∀ tx ∈ chainTransactions calls, tx ∈ txs) (hchain : ChainFrom pindexPrev calls)
    (hnonneg : 0 ≤ pindexPrev.nHeight) :
    Yields OfCoins (connectUnscanned arith calls view validationCache) fun final =>
      ((done ++ chainTransactions calls).map CTransaction.getHash).Nodup ∧
        applyBlocks utxos calls = some final.coins := by
  induction calls generalizing pindexPrev done utxos view validationCache with
  | nil =>
    refine .ok ?_
    rw [chainTransactions, flatMap_nil, append_nil, hview.coinsEq]
    exact ⟨hledger.nodup, rfl⟩
  | cons call calls ih =>
    obtain ⟨htop, hrest⟩ := hchain
    have htxs : chainTransactions (call :: calls) = call.block.vtx ++ chainTransactions calls :=
      flatMap_cons
    rw [← htop.nHeight] at hledger
    have hpos : 0 < call.pindex.nHeight := by
      rw [htop.nHeight]
      omega
    have hvtx : ∀ tx ∈ call.block.vtx, tx ∈ txs := (forall_mem_append.1 hcalls).1
    have hdone' : ∀ other ∈ done ++ call.block.vtx, other ∈ txs := forall_mem_append.2 ⟨hdone, hvtx⟩
    have hlater : ∀ tx ∈ chainTransactions calls, tx ∈ txs :=
      (forall_mem_append.1 hcalls).2
    refine .bind (connectBlockWith_ledger arith validationCache hview hledger hfree hdone hvtx htop
      hpos) ?_
    rintro connected ⟨vtxundo, rest, happly, hview', hledger'⟩
    rw [htxs, ← append_assoc, applyBlocks, happly]
    exact ih connected.validationCache hview' hledger' hdone' hlater hrest hpos.le

/-- Without the lookup of BIP30 no transaction of a chain comes twice. For every chain of blocks on
top of a genesis block, which leaves no coins, where BIP34 holds from height one on: while the
blocks are connected nothing fails in the coin cache, in particular no coin is refused because it
would overwrite another one; and if all are accepted, the transaction ids are different and every
coin was created where there was none. -/
theorem connectUnscanned_unique (arith : Arithmetic) (genesis : CBlockIndex)
    (calls : List ConnectCall) (view : CCoinsViewCache) (validationCache : ValidationCache)
    (hgenesis : genesis.nHeight = 0) (hview : view.Represents fun _ => none)
    (hchain : ChainFrom genesis calls) (hfree : CollisionFree (chainTransactions calls)) :
    (∀ failure, connectUnscanned arith calls view validationCache ≠ .error (.coins failure)) ∧
      ∀ final, connectUnscanned arith calls view validationCache = .ok final →
        ((chainTransactions calls).map CTransaction.getHash).Nodup ∧
          applyBlocks (fun _ => none) calls = some final.coins := by
  obtain ⟨hsoft, haccept⟩ := connectUnscanned_ledger arith validationCache hview
    (.empty (genesis.nHeight + 1)) hfree (fun _ hmem => absurd hmem not_mem_nil)
    (fun _ hmem => hmem) hchain hgenesis.ge
  exact ⟨fun failure hfails => hsoft _ hfails trivial, haccept⟩

/-- The first block after a genesis block, with the height one in its coinbase. -/
def firstCoinbase : CTransaction :=
  ⟨[⟨⟨0, 0xffffffff⟩, [0x51, 0x00], sequenceFinal, []⟩], [⟨4000000000, [op1]⟩], 1, 0⟩

def genesisIndex : CBlockIndex := ⟨⟨6, 0, 0, 4, 0, 0, 0, 0⟩, []⟩

section

variable (pindexPrev : CBlockIndex) (tx : CTransaction)

/-- A block with one transaction on top of an entry. -/
def blockOf : CBlock :=
  ⟨⟨⟨4, pindexPrev.phashBlock, @CTransaction.getHash Crypto.digits tx, 0, 0x2001ffff, 0⟩,
    none⟩, [tx]⟩

/-- The entry of the block. -/
def indexOf : CBlockIndex :=
  @CBlockIndex.extend Crypto.digits pindexPrev (blockOf pindexPrev tx).toCBlockHeader

def callOf : @ConnectCall Crypto.digits :=
  @ConnectCall.mk Crypto.digits ⟨testNetParams, 7, true, false, true⟩ (blockOf pindexPrev tx) .fresh
    (indexOf pindexPrev tx) false fun hflag => absurd hflag Bool.false_ne_true

end

omit [Crypto] [TransactionChecker] in
lemma callOf_onTopOf {pindexPrev : CBlockIndex} {tx : CTransaction}
    (hheight : pindexPrev.nHeight + 1 < 2 ^ 31)
    (hother : @CPureBlockHeader.getHash Crypto.digits (blockOf pindexPrev tx).toCPureBlockHeader ≠
      testNetParams.hashGenesisBlock)
    (hcontext : (@contextualCheckBlock Crypto.digits (blockOf pindexPrev tx) testNetParams
      (some pindexPrev) .fresh).1 = .ok ()) :
    @ConnectCall.OnTopOf Crypto.digits pindexPrev (callOf pindexPrev tx) :=
  @ConnectCall.OnTopOf.mk .digits pindexPrev (callOf pindexPrev tx) rfl rfl rfl hheight hother
    hcontext

/-- Two blocks: the coinbases differ in the height only. -/
def twoCalls : List (@ConnectCall Crypto.digits) :=
  [callOf genesisIndex firstCoinbase, callOf (indexOf genesisIndex firstCoinbase) mintCoinbase]

omit [Crypto] [TransactionChecker] in
lemma noCoins_unspent (_outpoint : COutPoint) (coin : Coin) (hcoin : none = some coin) :
    coin.isSpent = false :=
  absurd hcoin (Option.some_ne_none coin).symm

/-- The view the genesis block leaves. -/
def genesisView : CCoinsViewCache where
  base := ⟨fun _ => none, 6, noCoins_unspent⟩
  hashBlock := 0
  cacheCoins := ∅

def twoBlocks : Except (Failure BlockValidationResult) CCoinsViewCache :=
  @connectUnscanned Crypto.digits .rejecting .wrapping twoCalls genesisView ⟨3,
    CuckooCache.setup 0 2 1⟩

omit [Crypto] [TransactionChecker] in
theorem connectUnscanned_unique_two : ∃ final, twoBlocks = .ok final ∧
      ((@chainTransactions Crypto.digits twoCalls).map (@CTransaction.getHash
        Crypto.digits)).Nodup ∧
      @applyBlocks Crypto.digits (fun _ => none) twoCalls = some final.coins := by
  have haccept : twoBlocks.isOk := by decide +kernel
  obtain ⟨final, hfinal⟩ := exists_of_isOk haccept
  have hview : genesisView.Represents fun _ => none :=
    ⟨⟨fun _ _ hentry => (nomatch hentry), fun _ _ hentry => (nomatch hentry)⟩,
      funext fun _ => CCoinsViewCache.coins_of_lookup_none rfl⟩
  have hchain : @ChainFrom .digits genesisIndex twoCalls :=
    ⟨callOf_onTopOf (by decide +kernel) (by decide +kernel) (by decide +kernel),
      callOf_onTopOf (by decide +kernel) (by decide +kernel) (by decide +kernel), trivial⟩
  have hfree : @CollisionFree .digits (@chainTransactions .digits twoCalls) := by
    unfold CollisionFree
    decide +kernel
  obtain ⟨-, hunique⟩ := @connectUnscanned_unique .digits .rejecting .wrapping genesisIndex
    twoCalls genesisView ⟨3, .setup 0 2 1⟩ rfl hview hchain hfree
  exact ⟨final, hfinal, hunique final hfinal⟩

end Tidecoin
