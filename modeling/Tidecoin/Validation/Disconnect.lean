import Tidecoin.Chain
import Tidecoin.Coins

/-!
The effect of a block on the coins and its undoing: `UpdateCoins`, `ApplyTxInUndo` and
`DisconnectBlock` of `validation.cpp`. The loops that run backwards are written as recursions that
treat the later elements first.

The specification is the store of unspent outputs: a transaction takes the coins it spends and
puts the coins it creates, and fails where a coin it spends is absent or one it creates is present.
-/

namespace Tidecoin

open Lib Store List Option

/-- `CTxUndo`: the coins a transaction spent, in the order of its inputs. -/
abbrev CTxUndo := List Coin

/-- `CBlockUndo`: the undo data of the transactions after the coinbase. -/
abbrev CBlockUndo := List CTxUndo

/-- The loop of `UpdateCoins` over the inputs. -/
def spendInputs : CCoinsViewCache → List CTxIn → Except CoinsFailure (CTxUndo × CCoinsViewCache)
  | inputs, [] => .ok ([], inputs)
  | inputs, txin :: vin =>
    match inputs.spendCoin txin.prevout with
    | (none, _) => .error .missingInput
    | (some coin, inputs) => do
        let (vprevout, inputs) ← spendInputs inputs vin
        .ok (coin :: vprevout, inputs)

inductive DisconnectResult where
  | ok
  | unclean
  | failed
deriving DecidableEq, Repr

namespace DisconnectResult

/-- The result for a value of `fClean`. -/
def ofClean (fClean : Bool) : DisconnectResult := if fClean then .ok else .unclean

/-- A failure ends the loop; otherwise `fClean` is the conjunction. -/
def and : DisconnectResult → DisconnectResult → DisconnectResult
  | .ok, result => result
  | .unclean, .failed => .failed
  | .unclean, _ => .unclean
  | .failed, _ => .failed

end DisconnectResult

/-- `ApplyTxInUndo`. A coin of height zero stands for one whose height and coinbase flag were not
recorded; they are taken from another unspent output of its transaction. -/
def applyTxInUndo (undo : Coin) (view : CCoinsViewCache) (out : COutPoint) :
    Except CoinsFailure (DisconnectResult × CCoinsViewCache) :=
  let (overwrites, view) := view.haveCoin out
  let fClean := !overwrites
  if undo.nHeight = 0 then
    let (alternate, view) := accessByTxid view out.hash
    if !alternate.isSpent then do
      let undo := { undo with nHeight := alternate.nHeight, fCoinBase := alternate.fCoinBase }
      let view ← view.addCoin out undo (!fClean)
      .ok (.ofClean fClean, view)
    else .ok (.failed, view)
  else do
    let view ← view.addCoin out undo (!fClean)
    .ok (.ofClean fClean, view)

/-- The loop over the inputs of a transaction, the last one first. -/
def restoreInputs : List (COutPoint × Coin) → CCoinsViewCache →
    Except CoinsFailure (DisconnectResult × CCoinsViewCache)
  | [], view => .ok (.ok, view)
  | (out, undo) :: inputs, view => do
      let (result, view) ← restoreInputs inputs view
      if result = .failed then .ok (.failed, view)
      else do
        let (res, view) ← applyTxInUndo undo view out
        .ok (result.and res, view)

/-- The loop over the outputs from `index` on: whether each was there as the block created it. -/
def spendOutputs (txid : Uint256) (nHeight : Int) (isCoinbase isBip30Exception : Bool) :
    CCoinsViewCache → (fClean : Bool) → (index : Nat) → List CTxOut → Bool × CCoinsViewCache
  | view, fClean, _, [] => (fClean, view)
  | view, fClean, index, txout :: vout =>
    if Script.isUnspendable txout.scriptPubKey then
      spendOutputs txid nHeight isCoinbase isBip30Exception view fClean (index + 1) vout
    else
      let (spent, view) := view.spendCoin ⟨txid, UInt32.ofNat index⟩
      let same := spent.any fun coin => txout = coin.out && nHeight = (coin.nHeight.toNat : Int) &&
        isCoinbase = coin.fCoinBase
      spendOutputs txid nHeight isCoinbase isBip30Exception view
        (fClean && (same || isBip30Exception)) (index + 1) vout

/-- The two blocks whose coinbases were overwritten by later ones. -/
def isOverwrittenBlock (pindex : CBlockIndex) : Bool :=
  (pindex.nHeight = 91722 && pindex.phashBlock =
    0x00000000000271a2dc26e7667f8419f2e15416dc6955e5a6c6cdf3f2574dd08e) ||
  (pindex.nHeight = 91812 && pindex.phashBlock =
    0x00000000000af0aed4792b1acee3d966af36cf5def14935db8de83d6f9306f2f)

section

variable [Crypto]

omit [Crypto] in
/-- The first half of `UpdateCoins`: a coinbase has no inputs to mark spent. -/
def markInputsSpent (tx : CTransaction) (inputs : CCoinsViewCache) :
    Except CoinsFailure (CTxUndo × CCoinsViewCache) :=
  if tx.isCoinBase then .ok ([], inputs) else spendInputs inputs tx.vin

def updateCoins (tx : CTransaction) (inputs : CCoinsViewCache) (nHeight : Int) :
    Except CoinsFailure (CTxUndo × CCoinsViewCache) := do
  let (txundo, inputs) ← markInputsSpent tx inputs
  let inputs ← addCoins inputs tx nHeight false
  .ok (txundo, inputs)

/-- `UpdateCoins` for the transactions in order, with the undo data of each. -/
def updateAllCoins : List CTransaction → CCoinsViewCache → (nHeight : Int) →
    Except CoinsFailure (List CTxUndo × CCoinsViewCache)
  | [], view, _ => .ok ([], view)
  | tx :: vtx, view, nHeight => do
      let (txundo, view) ← updateCoins tx view nHeight
      let (vtxundo, view) ← updateAllCoins vtx view nHeight
      .ok (txundo :: vtxundo, view)

/-- The coins part of connecting a block. The undo data of the first transaction is dropped. -/
def updateBlockCoins (block : CBlock) (view : CCoinsViewCache) (nHeight : Int) :
    Except CoinsFailure (CBlockUndo × CCoinsViewCache) := do
  let (vtxundo, view) ← updateAllCoins block.vtx view nHeight
  .ok (vtxundo.tail, view)

/-- One round of `DisconnectBlock`, with the undo data of a transaction after the first. -/
def disconnectTransaction (nHeight : Int) (fEnforceBIP30 : Bool) (tx : CTransaction)
    (txundo : Option CTxUndo) (view : CCoinsViewCache) :
    Except CoinsFailure (DisconnectResult × CCoinsViewCache) :=
  let (fClean, view) := spendOutputs tx.getHash nHeight tx.isCoinBase
    (tx.isCoinBase && !fEnforceBIP30) view true 0 tx.vout
  match txundo with
  | none => .ok (.ofClean fClean, view)
  | some vprevout =>
    if vprevout.length ≠ tx.vin.length then .ok (.failed, view)
    else do
      let (result, view) ← restoreInputs ((tx.vin.map CTxIn.prevout).zip vprevout) view
      .ok ((DisconnectResult.ofClean fClean).and result, view)

/-- The loop of `DisconnectBlock`, the last transaction first. -/
def disconnectTransactions (nHeight : Int) (fEnforceBIP30 : Bool) :
    List (CTransaction × Option CTxUndo) → CCoinsViewCache →
      Except CoinsFailure (DisconnectResult × CCoinsViewCache)
  | [], view => .ok (.ok, view)
  | (tx, txundo) :: vtx, view => do
      let (result, view) ← disconnectTransactions nHeight fEnforceBIP30 vtx view
      if result = .failed then .ok (.failed, view)
      else do
        let (res, view) ← disconnectTransaction nHeight fEnforceBIP30 tx txundo view
        .ok (result.and res, view)

/-- `DisconnectBlock`, with the undo data read from disk if it could be read. The block must have a
predecessor: its hash becomes the best block. -/
def disconnectBlock (block : CBlock) (pindex : CBlockIndex) (blockUndo : Option CBlockUndo)
    (view : CCoinsViewCache) : Except CoinsFailure (DisconnectResult × CCoinsViewCache) :=
  match blockUndo with
  | none => .ok (.failed, view)
  | some vtxundo =>
    if vtxundo.length + 1 ≠ block.vtx.length then .ok (.failed, view)
    else do
      let (result, view) ← disconnectTransactions pindex.nHeight (!isOverwrittenBlock pindex)
        (block.vtx.zip (none :: vtxundo.map some)) view
      if result = .failed then .ok (.failed, view)
      else match pindex.pprev with
        | none => .error .noPredecessor
        | some pprev => .ok (result, view.setBestBlock pprev.phashBlock)

/-- The unspent outputs of a chain. -/
abbrev UtxoSet := Store COutPoint Coin

omit [Crypto] in
/-- The coins for the spendable outputs from `index` on. -/
def createdFrom (txid : Uint256) (nHeight : Int) (fCoinbase : Bool) :
    (index : Nat) → List CTxOut → List (COutPoint × Coin)
  | _, [] => []
  | index, txout :: vout =>
    if Script.isUnspendable txout.scriptPubKey then
      createdFrom txid nHeight fCoinbase (index + 1) vout
    else (⟨txid, UInt32.ofNat index⟩, Coin.ofTxOut txout nHeight fCoinbase) ::
      createdFrom txid nHeight fCoinbase (index + 1) vout

/-- The coins a transaction creates. -/
def CTransaction.createdCoins (tx : CTransaction) (nHeight : Int) : List (COutPoint × Coin) :=
  createdFrom tx.getHash nHeight tx.isCoinBase 0 tx.vout

omit [Crypto] in
/-- Takes the coins a transaction spends; a coinbase spends none. -/
def takeInputs (utxos : UtxoSet) (tx : CTransaction) : Option (CTxUndo × UtxoSet) :=
  if tx.isCoinBase then some ([], utxos) else utxos.takeAll (tx.vin.map CTxIn.prevout)

/-- What a transaction does to the unspent outputs, with the coins it spends. It can be applied if
every coin it spends is there, no coin it creates is, and no output has the null value. -/
def applyTransaction (utxos : UtxoSet) (tx : CTransaction) (nHeight : Int) :
    Option (CTxUndo × UtxoSet) :=
  if ∀ txout ∈ tx.vout, txout.isNull = false then do
    let (txundo, utxos) ← takeInputs utxos tx
    let utxos ← utxos.putAll (tx.createdCoins nHeight)
    some (txundo, utxos)
  else none

def applyTransactions : UtxoSet → List CTransaction → (nHeight : Int) →
    Option (List CTxUndo × UtxoSet)
  | utxos, [], _ => some ([], utxos)
  | utxos, tx :: vtx, nHeight => do
      let (txundo, utxos) ← applyTransaction utxos tx nHeight
      let (vtxundo, utxos) ← applyTransactions utxos vtx nHeight
      some (txundo :: vtxundo, utxos)

variable {view : CCoinsViewCache} {utxos rest : UtxoSet} {txundo : CTxUndo}

section

omit [Crypto]

/-- The run gives a value and leaves a view of the unspent outputs. -/
def Leaves {α : Type} (run : Except CoinsFailure (α × CCoinsViewCache)) (value : α)
    (utxos : UtxoSet) : Prop :=
  ∃ view, run = .ok (value, view) ∧ view.Represents utxos

lemma Leaves.bind {α β : Type} {run : Except CoinsFailure (α × CCoinsViewCache)}
    {next : α × CCoinsViewCache → Except CoinsFailure (β × CCoinsViewCache)} {value : α}
    {value' : β} (hrun : Leaves run value utxos)
    (hnext : ∀ view, view.Represents utxos → Leaves (next (value, view)) value' rest) :
    Leaves (run >>= next) value' rest := by
  obtain ⟨view, rfl, hview⟩ := hrun
  exact hnext view hview

lemma spendInputs_refines {vin : List CTxIn} (hview : view.Represents utxos)
    (htake : utxos.takeAll (vin.map CTxIn.prevout) = some (txundo, rest)) :
    Leaves (spendInputs view vin) txundo rest := by
  induction vin generalizing view utxos txundo with
  | nil =>
    cases htake
    exact ⟨view, rfl, hview⟩
  | cons txin vin ih =>
    obtain ⟨coin, others, hcoin, rfl, hnext⟩ := takeAll_cons.1 htake
    obtain ⟨hmoved, hspent⟩ := hview.spendCoin hcoin
    rw [spendInputs, ← Prod.mk.eta (p := view.spendCoin txin.prevout), hmoved]
    exact (ih hspent hnext).bind fun view' hview' => ⟨view', rfl, hview'⟩

variable {nHeight : Int} {vout : List CTxOut}

lemma addOutputs_refines {txid : Uint256} {fCoinbase : Bool} {index : Nat}
    (hview : view.Represents utxos)
    (hvalues : ∀ txout ∈ vout, txout.isNull = false)
    (hput : utxos.putAll (createdFrom txid nHeight fCoinbase index vout) = some rest) :
    ∃ view', addOutputs txid nHeight fCoinbase false view index vout = .ok view' ∧
      view'.Represents rest := by
  induction vout generalizing view utxos index with
  | nil =>
    cases hput
    exact ⟨view, rfl, hview⟩
  | cons txout vout ih =>
    have hunspent : (Coin.ofTxOut txout nHeight fCoinbase).isSpent = false :=
      hvalues txout mem_cons_self
    have hothers : ∀ other ∈ vout, other.isNull = false :=
      (forall_mem_cons.1 hvalues).2
    rw [createdFrom] at hput
    simp only [addOutputs, Bool.false_eq_true, if_false]
    by_cases hunspendable : Script.isUnspendable txout.scriptPubKey = true
    · rw [if_pos hunspendable] at hput
      rw [view.addCoin_unspendable _ hunspent hunspendable]
      exact ih hview hothers hput
    · rw [if_neg hunspendable] at hput
      obtain ⟨habsent, hnext⟩ := putAll_cons.1 hput
      obtain ⟨view', hadd, hview'⟩ := hview.addCoin hunspent
        (by simpa [Coin.ofTxOut] using hunspendable) fCoinbase (.inl habsent)
      rw [hadd]
      exact ih hview' hothers hnext

end

variable {tx : CTransaction}

lemma applyTransaction_eq_some : applyTransaction utxos tx nHeight = some (txundo, rest) ↔
      (∀ txout ∈ tx.vout, txout.isNull = false) ∧
      ∃ spent, takeInputs utxos tx = some (txundo, spent) ∧
        spent.putAll (tx.createdCoins nHeight) = some rest := by
  rw [applyTransaction]
  by_cases hvalues : ∀ txout ∈ tx.vout, txout.isNull = false
  · rw [if_pos hvalues]
    simp only [bind_eq_bind, bind_eq_some_iff, Prod.exists, some.injEq, Prod.mk.injEq]
    constructor
    · rintro ⟨_, spent, htake, _, hput, rfl, rfl⟩
      exact ⟨hvalues, spent, htake, hput⟩
    · rintro ⟨-, spent, htake, hput⟩
      exact ⟨txundo, spent, htake, rest, hput, rfl, rfl⟩
  · rw [if_neg hvalues]
    exact ⟨fun hnone => (nomatch hnone), fun hsome => absurd hsome.1 hvalues⟩

omit [Crypto] in
lemma markInputsSpent_refines {spent : UtxoSet} (hview : view.Represents utxos)
    (htake : takeInputs utxos tx = some (txundo, spent)) :
    Leaves (markInputsSpent tx view) txundo spent := by
  rw [takeInputs] at htake
  rw [markInputsSpent]
  by_cases hcoinbase : tx.isCoinBase = true
  · rw [if_pos hcoinbase] at htake ⊢
    cases htake
    exact ⟨view, rfl, hview⟩
  · rw [if_neg hcoinbase] at htake ⊢
    exact spendInputs_refines hview htake

lemma updateCoins_refines (hview : view.Represents utxos)
    (happly : applyTransaction utxos tx nHeight = some (txundo, rest)) :
    Leaves (updateCoins tx view nHeight) txundo rest := by
  obtain ⟨hvalues, spent, htake, hput⟩ := applyTransaction_eq_some.1 happly
  refine (markInputsSpent_refines hview htake).bind fun middle hmiddle => ?_
  obtain ⟨view', hadd, hview'⟩ := addOutputs_refines hmiddle hvalues hput
  exact ⟨view', bind_eq_ok.2 ⟨view', hadd, rfl⟩, hview'⟩

variable {vtx : List CTransaction} {vtxundo : List CTxUndo}

lemma applyTransactions_cons : applyTransactions utxos (tx :: vtx) nHeight = some (vtxundo, rest) ↔
      ∃ txundo others middle, applyTransaction utxos tx nHeight = some (txundo, middle) ∧
        applyTransactions middle vtx nHeight = some (others, rest) ∧
          vtxundo = txundo :: others := by
  simp only [applyTransactions, bind_eq_bind, bind_eq_some_iff, Prod.exists, some.injEq,
    Prod.mk.injEq]
  constructor
  · rintro ⟨txundo, middle, htx, others, _, hvtx, rfl, rfl⟩
    exact ⟨txundo, others, middle, htx, hvtx, rfl⟩
  · rintro ⟨txundo, others, middle, htx, hvtx, rfl⟩
    exact ⟨txundo, middle, htx, others, rest, hvtx, rfl, rfl⟩

lemma updateAllCoins_refines (hview : view.Represents utxos)
    (happly : applyTransactions utxos vtx nHeight = some (vtxundo, rest)) :
    Leaves (updateAllCoins vtx view nHeight) vtxundo rest := by
  induction vtx generalizing view utxos vtxundo with
  | nil =>
    cases happly
    exact ⟨view, rfl, hview⟩
  | cons tx vtx ih =>
    obtain ⟨txundo, others, middle, htx, hvtx, rfl⟩ := applyTransactions_cons.1 happly
    refine (updateCoins_refines hview htx).bind fun _ hmiddle => ?_
    exact (ih hmiddle hvtx).bind fun view' hview' => ⟨view', rfl, hview'⟩

omit [Crypto] in
/-- A coin that `ApplyTxInUndo` restores as it was: its height is recorded, and `AddCoin` stores
it. -/
structure Coin.Restorable (coin : Coin) : Prop where
  unspent : coin.isSpent = false
  spendable : Script.isUnspendable coin.out.scriptPubKey = false
  heightNe : coin.nHeight ≠ 0

section

omit [Crypto]

/-- Every unspent output can be restored. -/
def AllRestorable (utxos : UtxoSet) : Prop :=
  ∀ outpoint coin, utxos outpoint = some coin → coin.Restorable

lemma applyTxInUndo_refines {undo : Coin} {out : COutPoint} (hview : view.Represents utxos)
    (hundo : undo.Restorable) (habsent : utxos out = none) :
    Leaves (applyTxInUndo undo view out) .ok (utxos.insert out undo) := by
  have hfetch := hview.fetchCoin out
  obtain ⟨view', hadd, hview'⟩ := hfetch.addCoin hundo.unspent hundo.spendable false (.inl habsent)
  refine ⟨view', ?_, hview'⟩
  rw [applyTxInUndo, view.haveCoin_eq, hview.coinsEq, habsent]
  simp only [isSome_none, Bool.not_false, Bool.not_true, if_neg hundo.heightNe, hadd]
  rfl

lemma restoreInputs_refines {inputs : List (COutPoint × Coin)} (hview : view.Represents utxos)
    (hcoins : ∀ input ∈ inputs, input.2.Restorable)
    (hput : utxos.putAll inputs.reverse = some rest) :
    Leaves (restoreInputs inputs view) .ok rest := by
  induction inputs generalizing rest with
  | nil =>
    cases hput
    exact ⟨view, rfl, hview⟩
  | cons input inputs ih =>
    rw [reverse_cons, putAll_append, bind_eq_some_iff] at hput
    obtain ⟨middle, hothers, hlast⟩ := hput
    obtain ⟨habsent, hinsert⟩ := putAll_cons.1 hlast
    cases hinsert
    refine (ih (forall_mem_cons.1 hcoins).2 hothers).bind fun _ hmiddle => ?_
    exact (applyTxInUndo_refines hmiddle (hcoins input mem_cons_self) habsent).bind
      fun view' hview' => ⟨view', rfl, hview'⟩

lemma spendOutputs_refines {txid : Uint256} (hheight : 0 ≤ nHeight ∧ nHeight < 2 ^ 31)
    {isCoinbase : Bool}
    (isBip30Exception fClean : Bool) {index : Nat} (hview : view.Represents utxos)
    (htake : utxos.takeAll ((createdFrom txid nHeight isCoinbase index vout).map Prod.fst) =
      some ((createdFrom txid nHeight isCoinbase index vout).map Prod.snd, rest)) :
    ∃ view', spendOutputs txid nHeight isCoinbase isBip30Exception view fClean index vout =
      (fClean, view') ∧ view'.Represents rest := by
  induction vout generalizing view utxos index with
  | nil =>
    cases htake
    exact ⟨view, rfl, hview⟩
  | cons txout vout ih =>
    rw [createdFrom] at htake
    rw [spendOutputs]
    by_cases hunspendable : Script.isUnspendable txout.scriptPubKey = true
    · rw [if_pos hunspendable] at htake ⊢
      exact ih hview htake
    · rw [if_neg hunspendable] at htake ⊢
      obtain ⟨coin, others, hcoin, hvalues, hnext⟩ := takeAll_cons.1 htake
      obtain ⟨rfl, rfl⟩ := cons.inj hvalues
      obtain ⟨hmoved, hspent⟩ := hview.spendCoin hcoin
      have hsame : nHeight = ((BitVec.ofInt 31 nHeight).toNat : Int) := by
        rw [BitVec.toNat_ofInt]
        omega
      obtain ⟨view', hrun, hview'⟩ := ih hspent hnext
      refine ⟨view', ?_, hview'⟩
      simp only [hmoved, any_some, Coin.ofTxOut, ← hsame, decide_true, Bool.and_true,
        Bool.true_or, hrun]

lemma createdFrom_restorable {txid : Uint256} (hheight : 0 < nHeight ∧ nHeight < 2 ^ 31)
    {fCoinbase : Bool}
    {index : Nat} (hvalues : ∀ txout ∈ vout, txout.isNull = false) {outpoint : COutPoint}
    {coin : Coin}
    (hmem : (outpoint, coin) ∈ createdFrom txid nHeight fCoinbase index vout) :
    coin.Restorable := by
  induction vout generalizing index with
  | nil => cases hmem
  | cons txout vout ih =>
    have hothers : ∀ other ∈ vout, other.isNull = false :=
      (forall_mem_cons.1 hvalues).2
    rw [createdFrom] at hmem
    split at hmem
    case isTrue => exact ih hothers hmem
    case isFalse hspendable =>
      rcases mem_cons.1 hmem with heq | hlater
      · obtain ⟨-, rfl⟩ := Prod.mk.inj heq
        refine ⟨hvalues txout mem_cons_self, by simpa [Coin.ofTxOut] using hspendable, ?_⟩
        intro hzero
        have hnat : (BitVec.ofInt 31 nHeight).toNat = 0 := congrArg BitVec.toNat hzero
        rw [BitVec.toNat_ofInt] at hnat
        omega
      · exact ih hothers hlater

end

lemma applyTransaction_restorable (hheight : 0 < nHeight ∧ nHeight < 2 ^ 31)
    (hcoins : AllRestorable utxos)
    (happly : applyTransaction utxos tx nHeight = some (txundo, rest)) :
    (∀ coin ∈ txundo, coin.Restorable) ∧ AllRestorable rest := by
  obtain ⟨hvalues, spent, htake, hput⟩ := applyTransaction_eq_some.1 happly
  have hspent : (∀ coin ∈ txundo, coin.Restorable) ∧ AllRestorable spent := by
    rw [takeInputs] at htake
    split at htake
    case isTrue =>
      cases htake
      exact ⟨fun coin hmem => absurd hmem not_mem_nil, hcoins⟩
    case isFalse =>
      obtain ⟨hundo, hleft⟩ := takeAll_mem htake
      refine ⟨fun coin hmem => ?_, fun outpoint coin hcoin => hcoins _ _ (hleft _ _ hcoin)⟩
      obtain ⟨outpoint, hcoin⟩ := hundo coin hmem
      exact hcoins outpoint coin hcoin
  refine ⟨hspent.1, fun outpoint coin hcoin => ?_⟩
  rcases putAll_mem hput hcoin with hbefore | hmem
  · exact hspent.2 outpoint coin hbefore
  · exact createdFrom_restorable hheight hvalues hmem

lemma disconnectTransaction_refines (hheight : 0 < nHeight ∧ nHeight < 2 ^ 31)
    (fEnforceBIP30 : Bool)
    (hview : view.Represents rest) (hcoins : AllRestorable utxos)
    (happly : applyTransaction utxos tx nHeight = some (txundo, rest)) :
    Leaves (disconnectTransaction nHeight fEnforceBIP30 tx
      (if tx.isCoinBase then none else some txundo) view) .ok utxos := by
  obtain ⟨hundo, -⟩ := applyTransaction_restorable hheight hcoins happly
  obtain ⟨hvalues, spent, htake, hput⟩ := applyTransaction_eq_some.1 happly
  obtain ⟨view₁, houtputs, hview₁⟩ := spendOutputs_refines ⟨hheight.1.le, hheight.2⟩
    (tx.isCoinBase && !fEnforceBIP30) true hview (takeAll_of_putAll hput)
  rw [takeInputs] at htake
  rw [disconnectTransaction, houtputs]
  by_cases hcoinbase : tx.isCoinBase = true
  · rw [if_pos hcoinbase] at htake ⊢
    cases htake
    exact ⟨view₁, rfl, hview₁⟩
  · rw [if_neg hcoinbase] at htake ⊢
    have hlength : txundo.length = tx.vin.length := by
      rw [takeAll_length htake, length_map]
    have hinputs : ∀ input ∈ (tx.vin.map CTxIn.prevout).zip txundo, input.2.Restorable :=
      fun input hmem => hundo input.2 (of_mem_zip hmem).2
    simp only [hlength, ne_eq, not_true_eq_false, if_false]
    exact (restoreInputs_refines hview₁ hinputs (putAll_of_takeAll htake)).bind
      fun view₂ hview₂ => ⟨view₂, rfl, hview₂⟩

omit [Crypto] in
/-- The undo data that `DisconnectBlock` pairs with the transactions: none for a coinbase. -/
def undoPairs (vtx : List CTransaction) (vtxundo : List CTxUndo) :
    List (CTransaction × Option CTxUndo) :=
  List.zipWith (fun tx txundo => (tx, if tx.isCoinBase then none else some txundo)) vtx vtxundo

lemma disconnectTransactions_refines (hheight : 0 < nHeight ∧ nHeight < 2 ^ 31)
    (fEnforceBIP30 : Bool)
    (hview : view.Represents rest) (hcoins : AllRestorable utxos)
    (happly : applyTransactions utxos vtx nHeight = some (vtxundo, rest)) :
    Leaves (disconnectTransactions nHeight fEnforceBIP30 (undoPairs vtx vtxundo) view) .ok
      utxos := by
  induction vtx generalizing utxos vtxundo with
  | nil =>
    cases happly
    exact ⟨view, rfl, hview⟩
  | cons tx vtx ih =>
    obtain ⟨txundo, others, middle, htx, hvtx, rfl⟩ := applyTransactions_cons.1 happly
    obtain ⟨-, hmiddle⟩ := applyTransaction_restorable hheight hcoins htx
    refine (ih hmiddle hvtx).bind fun _ hlater => ?_
    exact (disconnectTransaction_refines hheight fEnforceBIP30 hlater hcoins htx).bind
      fun view' hview' => ⟨view', rfl, hview'⟩

lemma applyTransactions_length
    (happly : applyTransactions utxos vtx nHeight = some (vtxundo, rest)) :
    vtxundo.length = vtx.length := by
  induction vtx generalizing utxos vtxundo with
  | nil =>
    cases happly
    rfl
  | cons tx vtx ih =>
    obtain ⟨txundo, others, middle, -, hvtx, rfl⟩ := applyTransactions_cons.1 happly
    rw [length_cons, length_cons, ih hvtx]

omit [Crypto] in
lemma undoPairs_of_noCoinbase (hothers : ∀ tx ∈ vtx, tx.isCoinBase = false) :
    undoPairs vtx vtxundo = vtx.zip (vtxundo.map some) := by
  induction vtx generalizing vtxundo with
  | nil => rfl
  | cons tx vtx ih =>
    cases vtxundo with
    | nil => rfl
    | cons txundo vtxundo =>
      rw [undoPairs, zipWith_cons_cons, ← undoPairs, map_cons, zip_cons_cons,
        ih (forall_mem_cons.1 hothers).2,
        hothers tx mem_cons_self]
      rfl

/-- Disconnecting inverts connecting. For every block with a predecessor whose first transaction
and no other is a coinbase, and every cache with right flags whose coins all have a spendable
script and a recorded height: if the block's transactions can be applied to the visible coins, then
`UpdateCoins` applies them, and `DisconnectBlock` with the collected undo data is clean and shows
the original coins. -/
theorem disconnectBlock_updateBlockCoins (block : CBlock) (pindex : CBlockIndex)
    (view : CCoinsViewCache) (hview : view.Valid)
    (hcoins : ∀ outpoint coin, view.coins outpoint = some coin →
      Script.isUnspendable coin.out.scriptPubKey = false ∧ coin.nHeight ≠ 0)
    (hfirst : ∃ coinbase ∈ block.vtx.head?, coinbase.isCoinBase = true)
    (hothers : ∀ tx ∈ block.vtx.drop 1, tx.isCoinBase = false)
    (hheight : 0 < pindex.nHeight ∧ pindex.nHeight < 2 ^ 31) (hprev : pindex.ancestors ≠ [])
    (happly : (applyTransactions view.coins block.vtx pindex.nHeight).isSome = true) :
    ∃ blockUndo connected, updateBlockCoins block view pindex.nHeight = .ok (blockUndo, connected) ∧
      ∃ restored, disconnectBlock block pindex (some blockUndo) connected = .ok (.ok, restored) ∧
        restored.Valid ∧ restored.coins = view.coins := by
  obtain ⟨⟨vtxundo, utxos⟩, hrun⟩ := isSome_iff_exists.1 happly
  obtain ⟨connected, hupdate, hconnected⟩ := updateAllCoins_refines ⟨hview, rfl⟩ hrun
  have hrestorable : AllRestorable view.coins :=
    fun outpoint coin hcoin => ⟨CCoinsViewCache.coins_unspent hcoin, (hcoins outpoint coin hcoin).1,
      (hcoins outpoint coin hcoin).2⟩
  obtain ⟨restored, hundo, hrestored⟩ := disconnectTransactions_refines hheight
    (!isOverwrittenBlock pindex) hconnected hrestorable hrun
  have hlength := applyTransactions_length hrun
  obtain ⟨coinbase, hhead, hcoinbase⟩ := hfirst
  obtain ⟨vtx, hvtx⟩ : ∃ vtx, block.vtx = coinbase :: vtx := head?_eq_some_iff.1 hhead
  rw [hvtx] at hlength hundo
  rw [hvtx, drop_one, tail_cons] at hothers
  obtain ⟨txundo, blockUndo, rfl⟩ : ∃ txundo blockUndo, vtxundo = txundo :: blockUndo :=
    exists_cons_of_length_eq_add_one hlength
  -- The first transaction has no undo data, the others have theirs.
  have hpairs : undoPairs (coinbase :: vtx) (txundo :: blockUndo) =
      (coinbase :: vtx).zip (none :: blockUndo.map some) := by
    rw [undoPairs, zipWith_cons_cons, ← undoPairs, undoPairs_of_noCoinbase hothers, hcoinbase]
    rfl
  obtain ⟨pprev, hpprev⟩ : ∃ pprev, pindex.pprev = some pprev := by
    obtain ⟨entry, ancestors, hancestors⟩ := exists_cons_of_ne_nil hprev
    exact ⟨_, by rw [CBlockIndex.pprev, hancestors]⟩
  have hbest := hrestored.setBestBlock pprev.phashBlock
  refine ⟨blockUndo, connected, bind_eq_ok.2 ⟨_, hupdate, rfl⟩, _, ?_, hbest.valid, hbest.coinsEq⟩
  rw [disconnectBlock, hvtx, if_neg (by simpa using hlength), ← hpairs, hundo]
  simp only [hpprev]
  rfl

end

/-- Two coins, the first two outputs of one transaction. -/
def sampleCoins (first second : Coin) : UtxoSet := fun outpoint =>
  if outpoint = ⟨1, 0⟩ then some first else if outpoint = ⟨1, 1⟩ then some second else none

lemma sampleCoins_cases {first second coin : Coin} {outpoint : COutPoint}
    (hcoin : sampleCoins first second outpoint = some coin) : coin = first ∨ coin = second := by
  rw [sampleCoins] at hcoin
  split at hcoin
  · exact .inl (some.inj hcoin).symm
  · split at hcoin
    · exact .inr (some.inj hcoin).symm
    · cases hcoin

lemma sampleCoins_unspent {first second : Coin} (hfirst : first.isSpent = false)
    (hsecond : second.isSpent = false) (outpoint : COutPoint) (coin : Coin)
    (hcoin : sampleCoins first second outpoint = some coin) : coin.isSpent = false := by
  rcases sampleCoins_cases hcoin with rfl | rfl
  · exact hfirst
  · exact hsecond

section

variable (first second : Coin) (hfirst : first.isSpent = false) (hsecond : second.isSpent = false)
include hfirst hsecond

/-- An empty cache over two coins. -/
def sampleView : CCoinsViewCache where
  base := ⟨sampleCoins first second, 0, sampleCoins_unspent hfirst hsecond⟩
  hashBlock := 0
  cacheCoins := ∅

lemma sampleView_valid : (sampleView first second hfirst hsecond).Valid :=
  ⟨fun _ _ hentry => (nomatch hentry), fun _ _ hentry => (nomatch hentry)⟩

end

/-- A coinbase, and a transaction that spends the second output of `sampleView`. -/
def sampleCoinbase : CTransaction := ⟨[⟨⟨0, 0xffffffff⟩, [], 0, []⟩], [⟨5, []⟩], 1, 0⟩

def sampleSpend : CTransaction := ⟨[⟨⟨1, 1⟩, [], 0, []⟩], [⟨4, []⟩, ⟨0, [opReturn]⟩], 1, 0⟩

def sampleBlock (vtx : List CTransaction) : CBlock := ⟨⟨CPureBlockHeader.null, none⟩, vtx⟩

/-- An index entry at height 8. -/
def sampleIndex : CBlockIndex := ⟨⟨8, 8, 0, 1, 0, 0, 0, 0⟩, [⟨7, 7, 0, 1, 0, 0, 0, 0⟩]⟩

theorem disconnectBlock_updateBlockCoins_sample :
    ∃ blockUndo connected, @updateBlockCoins Crypto.digits (sampleBlock [sampleCoinbase,
      sampleSpend])
        (sampleView ⟨⟨3, []⟩, false, 7⟩ ⟨⟨4, []⟩, false, 7⟩ rfl rfl) 8 =
          .ok (blockUndo, connected) ∧
      ∃ restored, @disconnectBlock Crypto.digits (sampleBlock [sampleCoinbase, sampleSpend])
        sampleIndex
          (some blockUndo) connected = .ok (.ok, restored) ∧ restored.Valid ∧
        restored.coins = (sampleView ⟨⟨3, []⟩, false, 7⟩ ⟨⟨4, []⟩, false, 7⟩ rfl rfl).coins := by
  refine @disconnectBlock_updateBlockCoins .digits (sampleBlock [sampleCoinbase, sampleSpend])
    sampleIndex (sampleView ⟨⟨3, []⟩, false, 7⟩ ⟨⟨4, []⟩, false, 7⟩ rfl rfl)
    (sampleView_valid _ _ rfl rfl) ?_ (by decide) (by decide) (by decide) (by decide)
    (by decide +kernel)
  intro outpoint coin hcoin
  rw [CCoinsViewCache.coins_of_lookup_none rfl] at hcoin
  rcases sampleCoins_cases hcoin with rfl | rfl
  · decide
  · decide

/-- What connecting and disconnecting a block leaves of an outpoint. -/
def reconnected [Crypto] (block : CBlock) (pindex : CBlockIndex) (view : CCoinsViewCache)
    (outpoint : COutPoint) : Except CoinsFailure (DisconnectResult × Option Coin) := do
  let (blockUndo, connected) ← updateBlockCoins block view pindex.nHeight
  let (result, restored) ← disconnectBlock block pindex (some blockUndo) connected
  .ok (result, restored.coins outpoint)

/-- The three conditions are needed. A coin of height zero comes back with the height of its
sibling; one with an unspendable script does not come back; and the inputs of a first transaction
that is not a coinbase are not restored. -/
theorem disconnectBlock_not_inverse : let spend := sampleBlock [sampleCoinbase, sampleSpend]
    let old := sampleView ⟨⟨3, []⟩, false, 7⟩ ⟨⟨4, []⟩, false, 0⟩ rfl rfl
    let dead := sampleView ⟨⟨3, []⟩, false, 7⟩ ⟨⟨4, [opReturn]⟩, false, 7⟩ rfl rfl
    let plain := sampleView ⟨⟨3, []⟩, false, 7⟩ ⟨⟨4, []⟩, false, 7⟩ rfl rfl
    let bare := sampleBlock [sampleSpend]
    ((@applyTransactions .digits old.coins spend.vtx 8).isSome = true ∧
      old.coins ⟨1, 1⟩ = some ⟨⟨4, []⟩, false, 0⟩ ∧
      @reconnected .digits spend sampleIndex old ⟨1, 1⟩ = .ok (.ok, some ⟨⟨4, []⟩, false, 7⟩)) ∧
    ((@applyTransactions .digits dead.coins spend.vtx 8).isSome = true ∧
      dead.coins ⟨1, 1⟩ = some ⟨⟨4, [opReturn]⟩, false, 7⟩ ∧
      @reconnected .digits spend sampleIndex dead ⟨1, 1⟩ = .ok (.ok, none)) ∧
    ((@applyTransactions .digits plain.coins bare.vtx 8).isSome = true ∧
      plain.coins ⟨1, 1⟩ = some ⟨⟨4, []⟩, false, 7⟩ ∧
      @reconnected .digits bare sampleIndex plain ⟨1, 1⟩ = .ok (.ok, none)) := by
  decide +kernel

end Tidecoin
