import Tidecoin.Validation.Disconnect
import Tidecoin.Validation.InputScripts

/-!
`ConnectBlock` of `validation.cpp`: the checks of a block that need the coins, and the application
of its transactions to a view. Whether the scripts are checked, whether there are threads to check
them, and whether the undo data can be written are parameters. After a failed check nothing changes
the outcome any more, so the model ends there; the callers throw the view of a failed call away.
-/

namespace Tidecoin

open Lib Restricts

/-- What `ConnectBlock` reads from its chain state. -/
structure ConnectOptions where
  params : Params
  bip34Hash : Uint256
  fScriptChecks : Bool
  hasThreads : Bool
  undoWritten : Bool

def bip34ImpliesBip30Limit : Int := 1983702

def isBIP30Repeat (blockIndex : CBlockIndex) : Bool :=
  (blockIndex.nHeight = 91842 && blockIndex.phashBlock =
    0x00000000000a4d0a398161ffc163c503763b1f4360639393e0e4c8e300e0caec) ||
  (blockIndex.nHeight = 91880 && blockIndex.phashBlock =
    0x00000000000743f190a18c5577a3c2d2a1f610ae9601ac046a38084ccb7cd721)

/-- Whether the outputs of the block are looked up in the view: not on the chain where the height in
the coinbase makes every coinbase new. -/
def scansBIP30 (options : ConnectOptions) (pindex : CBlockIndex) : Bool :=
  let pindexBIP34height := pindex.pprev.bind fun pprev =>
    pprev.getAncestor options.params.bip34Height
  let fEnforceBIP30 := !isBIP30Repeat pindex &&
    !pindexBIP34height.any fun ancestor => ancestor.phashBlock = options.bip34Hash
  fEnforceBIP30 || bip34ImpliesBip30Limit ≤ pindex.nHeight

/-- A failure of a transaction as a failure of its block. -/
def Failure.inBlock (inBlock : TxInvalid → BlockInvalid) :
    Failure TxValidationResult → Failure BlockValidationResult
  | .overflow => .overflow
  | .assertion => .assertion
  | .exception what => .exception what
  | .coins failure => .coins failure
  | .systemError message => .systemError message
  | .invalid state => .invalid (inBlock state)

/-- The variables of the loop over the transactions. -/
structure ConnectState where
  view : CCoinsViewCache
  nFees : Int
  nSigOpsCost : Int
  vtxundo : List CTxUndo
  vChecks : List InputCheck
  validationCache : ValidationCache

/-- What an accepted block leaves. -/
structure Connected where
  view : CCoinsViewCache
  blockundo : CBlockUndo
  validationCache : ValidationCache
  cache : BlockCache

variable [Crypto]

omit [Crypto] in
/-- The inner loop of the lookup: some output is there. -/
def haveOutputs (txid : Uint256) :
    CCoinsViewCache → (index : Nat) → List CTxOut → Bool × CCoinsViewCache
  | view, _, [] => (false, view)
  | view, index, _ :: vout =>
    let (found, view) := view.haveCoin ⟨txid, UInt32.ofNat index⟩
    let (others, view) := haveOutputs txid view (index + 1) vout
    (found || others, view)

/-- The lookup of all outputs of the block. -/
def haveBlockOutputs : CCoinsViewCache → List CTransaction → Bool × CCoinsViewCache
  | view, [] => (false, view)
  | view, tx :: vtx =>
    let (found, view) := haveOutputs tx.getHash view 0 tx.vout
    let (others, view) := haveBlockOutputs view vtx
    (found || others, view)

/-- The rule against overwriting transactions. -/
def checkBIP30 (scan : Bool) (block : CBlock) (view : CCoinsViewCache) :
    Except (Failure BlockValidationResult) CCoinsViewCache :=
  if scan then do
    let (found, view) := haveBlockOutputs view block.vtx
    require (found = false) (.invalid ⟨.consensus, "bad-txns-BIP30",
      "tried to overwrite transaction"⟩)
    return view
  else .ok view

/-- The second run of `CheckBlock`. A block that now looks mutated must have been damaged. -/
def checkAgain (params : Params) (block : CBlock) (pindex : CBlockIndex) (fJustCheck : Bool)
    (cache : BlockCache) : Except (Failure BlockValidationResult) BlockCache :=
  match checkBlock block params (!fJustCheck) (!fJustCheck) (some pindex.nHeight) cache with
  | (.ok _, cache) => .ok cache
  | (.error state, _) =>
    if state.result = .mutated then
      .error (.systemError "Corrupt block found indicating potential hardware failure.")
    else .error (.invalid state)

section

variable (arith : Arithmetic) (options : ConnectOptions) (pindex : CBlockIndex)

/-- The amounts and the relative lock times of a transaction. -/
def connectInputs (tx : CTransaction) (state : ConnectState) :
    Except (Failure BlockValidationResult) ConnectState :=
  if tx.isCoinBase then .ok state
  else do
    let (txfee, view) ← (checkTxInputs arith tx state.view pindex.nHeight).mapError
      (Failure.inBlock fun state => ⟨.consensus, state.rejectReason,
        state.debugMessage ++ " in transaction " ++ tx.getHash.toHex⟩)
    let nFees ← arith.compute (state.nFees + txfee)
    require (moneyRange nFees) (.invalid ⟨.consensus, "bad-txns-accumulated-fee-outofrange",
      "accumulated fee in the block out of range"⟩)
    let prevheights := tx.vin.map fun txin => ((view.answer txin.prevout).nHeight.toNat : Int)
    let final ← sequenceLocks tx (deploymentActiveAt pindex options.params.csvHeight)
      prevheights pindex
    require (final = true) (.invalid ⟨.consensus, "bad-txns-nonfinal",
      "contains a non-BIP68-final transaction " ++ tx.getHash.toHex⟩)
    return { state with view, nFees }

omit [Crypto] in
/-- The signature operations. -/
def connectSigOps (tx : CTransaction) (state : ConnectState) :
    Except (Failure BlockValidationResult) ConnectState := do
  let cost ← getTransactionSigOpCost tx state.view.answer
    (getBlockScriptFlags options.params pindex)
  require (state.nSigOpsCost + cost ≤ maxBlockSigopsCost)
    (.invalid ⟨.consensus, "bad-blk-sigops", "too many sigops"⟩)
  return { state with nSigOpsCost := state.nSigOpsCost + cost }

/-- The scripts, unless they are not checked; with threads the checks are only collected. -/
def connectScripts [TransactionChecker] (fJustCheck : Bool) (tx : CTransaction)
    (state : ConnectState) : Except (Failure BlockValidationResult) ConnectState :=
  if !tx.isCoinBase && options.fScriptChecks then do
    let (vChecks, validationCache) ← (checkInputScripts tx state.view.answer
      (getBlockScriptFlags options.params pindex) fJustCheck options.hasThreads
      state.validationCache).mapError
      (Failure.inBlock fun state => ⟨.consensus, state.rejectReason, state.debugMessage⟩)
    return { state with vChecks := state.vChecks ++ vChecks, validationCache }
  else .ok state

/-- The coins. -/
def connectCoins (tx : CTransaction) (state : ConnectState) :
    Except (Failure BlockValidationResult) ConnectState := do
  let (txundo, view) ← (updateCoins tx state.view pindex.nHeight).mapError .coins
  return { state with view, vtxundo := state.vtxundo ++ [txundo] }

/-- One round of the loop. -/
def connectTransaction [TransactionChecker] (fJustCheck : Bool) (state : ConnectState)
    (tx : CTransaction) : Except (Failure BlockValidationResult) ConnectState := do
  let state ← connectInputs arith options pindex tx state
  let state ← connectSigOps options pindex tx state
  let state ← connectScripts options pindex fJustCheck tx state
  connectCoins pindex tx state

omit [Crypto] in
/-- The coinbase pays at most the subsidy and the fees. -/
def checkReward (block : CBlock) (nFees : Int) : Except (Failure BlockValidationResult) Unit := do
  let blockReward ← arith.compute (nFees + getBlockSubsidy pindex.nHeight options.params)
  match block.vtx.head? with
  -- `CheckBlock` has refused a block without transactions.
  | none => .error .assertion
  | some coinbase => do
      let valueOut ← getValueOut arith coinbase
      require (valueOut ≤ blockReward) (.invalid ⟨.consensus, "bad-cb-amount",
        "coinbase pays too much (actual=" ++ toString valueOut ++ " vs limit=" ++
          toString blockReward ++ ")"⟩)

end

/-- `control->Complete()`: one of the collected checks that fail. -/
def completeChecks (flags : ScriptFlags) :
    List InputCheck → Except (Failure BlockValidationResult) Unit
  | [] => .ok ()
  | check :: checks =>
    match check.run flags with
    | .ok () => completeChecks flags checks
    | .error (error, debugStr) => .error (.invalid ⟨.consensus,
        "block-script-verify-flag-failed (" ++ scriptErrorString error ++ ")", debugStr⟩)

variable [TransactionChecker]

section

variable (arith : Arithmetic) (options : ConnectOptions)

/-- The transactions of a block that is not the first one. -/
def connectBody (scan : Bool) (block : CBlock)
    (pindex : CBlockIndex) (fJustCheck : Bool) (view : CCoinsViewCache)
    (validationCache : ValidationCache) :
    Except (Failure BlockValidationResult) ConnectState := do
  require (pindex.pprev.isSome = true) .assertion
  let view ← checkBIP30 scan block view
  let state ← block.vtx.foldlM (connectTransaction arith options pindex fJustCheck)
    ⟨view, 0, 0, [], [], validationCache⟩
  checkReward arith options pindex block state.nFees
  completeChecks (getBlockScriptFlags options.params pindex) state.vChecks
  return state

/-- `ConnectBlock`, for a given decision to look up the outputs of the block. -/
def connectBlockWith (scan : Bool) (block : CBlock)
    (cache : BlockCache) (pindex : CBlockIndex) (fJustCheck : Bool) (view : CCoinsViewCache)
    (validationCache : ValidationCache) : Except (Failure BlockValidationResult) Connected := do
  require (pindex.phashBlock = block.getHash) .assertion
  let cache ← checkAgain options.params block pindex fJustCheck cache
  let (best, view) := view.getBestBlock
  require ((pindex.pprev.map fun pprev => pprev.phashBlock).getD 0 = best) .assertion
  if block.getHash = options.params.hashGenesisBlock then
    return ⟨if fJustCheck then view else view.setBestBlock pindex.phashBlock, [],
      validationCache, cache⟩
  else do
    let state ← connectBody arith options scan block pindex fJustCheck view validationCache
    if fJustCheck then return ⟨state.view, state.vtxundo.tail, state.validationCache, cache⟩
    else do
      require (options.undoWritten = true) (.systemError "Failed to write undo data.")
      return ⟨state.view.setBestBlock pindex.phashBlock, state.vtxundo.tail,
        state.validationCache, cache⟩

def connectBlock (block : CBlock)
    (cache : BlockCache) (pindex : CBlockIndex) (fJustCheck : Bool) (view : CCoinsViewCache)
    (validationCache : ValidationCache) : Except (Failure BlockValidationResult) Connected :=
  connectBlockWith arith options (scansBIP30 options pindex) block cache pindex fJustCheck view
    validationCache

end

section

variable {block : CBlock} {pindex : CBlockIndex} {fJustCheck : Bool} {cache : BlockCache}

omit [TransactionChecker] in
lemma checkAgain_body {params : Params} {cache' : BlockCache}
    (hsound : cache.fChecked → checkBlockBody block = .ok ())
    (hcheck : checkAgain params block pindex fJustCheck cache = .ok cache') :
    checkBlockBody block = .ok () := by
  unfold checkAgain at hcheck
  split at hcheck
  case h_1 after hok =>
    unfold checkBlock checkBlockImpl at hok
    split at hok
    case isTrue hflag => exact hsound hflag
    case isFalse =>
      split at hok
      · cases hok
      · split at hok
        · cases hok
        · unfold cachedCheck at hok
          split at hok
          · contradiction
          · split at hok
            · cases hok
            case h_2 hbody => exact hbody
  case h_2 =>
    split at hcheck
    · cases hcheck
    · cases hcheck

/-- What an accepted block went through. A genesis block leaves the coins as they are; any other one
is connected, and the view gets a new best block unless the call was just a check. -/
theorem connectBlockWith_ok {arith : Arithmetic} {options : ConnectOptions} {scan : Bool}
    {view : CCoinsViewCache} {validationCache : ValidationCache} {connected : Connected}
    (haccept : connectBlockWith arith options scan block cache pindex fJustCheck view
      validationCache = .ok connected) :
    (∃ cache', checkAgain options.params block pindex fJustCheck cache = .ok cache') ∧
      ∃ final : CCoinsViewCache,
        (connected.view = final ∨ connected.view = final.setBestBlock pindex.phashBlock) ∧
        ((block.getHash = options.params.hashGenesisBlock ∧ final = view.getBestBlock.2) ∨
          (block.getHash ≠ options.params.hashGenesisBlock ∧
            ∃ state, connectBody arith options scan block pindex fJustCheck view.getBestBlock.2
              validationCache = .ok state ∧ final = state.view)) := by
  obtain ⟨_, -, haccept⟩ := bind_eq_ok.1 haccept
  obtain ⟨cache', hchecked, haccept⟩ := bind_eq_ok.1 haccept
  obtain ⟨_, -, haccept⟩ := bind_eq_ok.1 haccept
  refine ⟨⟨cache', hchecked⟩, ?_⟩
  split at haccept
  case isTrue hgenesis =>
    cases haccept
    refine ⟨view.getBestBlock.2, ?_, .inl ⟨hgenesis, rfl⟩⟩
    split
    · exact .inl rfl
    · exact .inr rfl
  case isFalse hother =>
    obtain ⟨state, hbody, haccept⟩ := bind_eq_ok.1 haccept
    refine ⟨state.view, ?_, .inr ⟨hother, state, hbody, rfl⟩⟩
    split at haccept
    · cases haccept
      exact .inl rfl
    · obtain ⟨_, -, haccept⟩ := bind_eq_ok.1 haccept
      cases haccept
      exact .inr rfl

end

variable {options : ConnectOptions} {pindex : CBlockIndex} {fJustCheck : Bool}

variable {state : ConnectState}

omit [TransactionChecker] in
lemma connectInputs_restricts (hfees : moneyRange state.nFees) (tx : CTransaction) :
    Restricts (connectInputs .wrapping options pindex tx state)
      (connectInputs .checked options pindex tx state) := by
  apply Restricts.ite
  · exact refl _
  · apply bind_of_ok
    · exact (checkTxInputs_restricts _ _ _).mapError _
    · rintro ⟨txfee, view⟩ hcheck
      have hchecked := checkTxInputs_restricts _ _ _ _ (mapError_eq_ok.1 hcheck)
      have hfee := (checkTxInputs_checked hchecked).2.2.2.1
      dsimp only
      rw [Arithmetic.compute_wrapping (int64Range_of_moneyRange hfees hfee).1]
      exact .refl _

variable {arith : Arithmetic} {next : ConnectState} {tx : CTransaction}

omit [TransactionChecker] in
/-- A coinbase passes as it is; any other transaction has its inputs, and adds its fee. -/
theorem connectInputs_ok (hround : connectInputs arith options pindex tx state = .ok next) :
    (tx.isCoinBase = true ∧ next = state) ∨ (tx.isCoinBase = false ∧ ∃ txfee,
      checkTxInputs arith tx state.view pindex.nHeight = .ok (txfee, next.view) ∧
      (arith.compute (state.nFees + txfee) : Except (Failure BlockValidationResult) Int) =
        .ok next.nFees ∧
      moneyRange next.nFees) := by
  unfold connectInputs at hround
  split at hround
  case isTrue hcoinbase =>
    cases hround
    exact .inl ⟨hcoinbase, rfl⟩
  case isFalse hcoinbase =>
    obtain ⟨⟨txfee, view⟩, hcheck, hround⟩ := bind_eq_ok.1 hround
    obtain ⟨nFees, hsum, hround⟩ := bind_eq_ok.1 hround
    obtain ⟨_, hrange, hround⟩ := bind_eq_ok.1 hround
    obtain ⟨final, -, hround⟩ := bind_eq_ok.1 hround
    obtain ⟨_, -, hround⟩ := bind_eq_ok.1 hround
    cases hround
    exact .inr ⟨Bool.eq_false_iff.2 hcoinbase, txfee, mapError_eq_ok.1 hcheck, hsum,
      require_eq_ok.1 hrange⟩

omit [Crypto] [TransactionChecker] in
lemma connectSigOps_frame (hround : connectSigOps options pindex tx state = .ok next) :
    next.view = state.view ∧ next.nFees = state.nFees := by
  obtain ⟨cost, -, hround⟩ := bind_eq_ok.1 hround
  obtain ⟨_, -, hround⟩ := bind_eq_ok.1 hround
  cases hround
  exact ⟨rfl, rfl⟩

lemma connectScripts_frame (hround : connectScripts options pindex fJustCheck tx state = .ok next) :
    next.view = state.view ∧ next.nFees = state.nFees := by
  unfold connectScripts at hround
  split at hround
  · obtain ⟨⟨vChecks, validationCache⟩, -, hround⟩ := bind_eq_ok.1 hround
    cases hround
    exact ⟨rfl, rfl⟩
  · cases hround
    exact ⟨rfl, rfl⟩

/-- What an accepted round does: it checks the amounts of the transaction on its coins, and applies
the transaction to the view. -/
theorem connectTransaction_ok
    (hround : connectTransaction arith options pindex fJustCheck state tx = .ok next) :
    ∃ checked txundo, connectInputs arith options pindex tx state = .ok checked ∧
      updateCoins tx checked.view pindex.nHeight = .ok (txundo, next.view) ∧
      next.nFees = checked.nFees := by
  obtain ⟨checked, hinputs, hround⟩ := bind_eq_ok.1 hround
  obtain ⟨counted, hsigops, hround⟩ := bind_eq_ok.1 hround
  obtain ⟨verified, hscripts, hround⟩ := bind_eq_ok.1 hround
  obtain ⟨⟨txundo, view⟩, hcoins, hround⟩ := bind_eq_ok.1 hround
  cases hround
  obtain ⟨hview, hfees⟩ := connectSigOps_frame hsigops
  obtain ⟨hview', hfees'⟩ := connectScripts_frame hscripts
  refine ⟨checked, txundo, hinputs, ?_, hfees'.trans hfees⟩
  rw [← hview, ← hview']
  exact mapError_eq_ok.1 hcoins

section

variable (hfees : moneyRange state.nFees)
include hfees

lemma connectTransaction_restricts (tx : CTransaction) :
    Restricts (connectTransaction .wrapping options pindex fJustCheck state tx)
      (connectTransaction .checked options pindex fJustCheck state tx) := by
  apply bind (connectInputs_restricts hfees tx)
  intro checked
  exact refl _

lemma connectTransaction_nFees
    (hround : connectTransaction arith options pindex fJustCheck state tx = .ok next) :
    moneyRange next.nFees := by
  obtain ⟨checked, txundo, hinputs, -, hnext⟩ := connectTransaction_ok hround
  rw [hnext]
  rcases connectInputs_ok hinputs with ⟨-, rfl⟩ | ⟨-, _, -, -, hrange⟩
  · exact hfees
  · exact hrange

lemma connectTransactions_nFees {vtx : List CTransaction}
    (hrun : vtx.foldlM (connectTransaction arith options pindex fJustCheck) state = .ok next) :
    moneyRange next.nFees := by
  induction vtx generalizing state with
  | nil =>
    cases hrun
    exact hfees
  | cons tx vtx ih =>
    obtain ⟨middle, hround, hrun⟩ := bind_eq_ok.1 hrun
    exact ih (connectTransaction_nFees hfees hround) hrun

end

omit [Crypto] [TransactionChecker] in
lemma checkReward_wrapping (block : CBlock) {nFees : Int} (hfees : moneyRange nFees) :
    checkReward .wrapping options pindex block nFees =
      checkReward .checked options pindex block nFees := by
  have hsubsidy : moneyRange (getBlockSubsidy pindex.nHeight options.params) := by
    rw [moneyRange_iff]
    refine ⟨getBlockSubsidy_nonneg _ _, (getBlockSubsidy_le _ _).trans ?_⟩
    decide
  unfold checkReward
  rw [Arithmetic.compute_wrapping (int64Range_of_moneyRange hfees hsubsidy).1]
  simp [getValueOut_wrapping]

lemma connectBody_ok {scan : Bool} {block : CBlock} {view : CCoinsViewCache}
    {validationCache : ValidationCache}
    (hconnect : connectBody arith options scan block pindex fJustCheck view validationCache =
      .ok state) :
    ∃ scanned, checkBIP30 scan block view = .ok scanned ∧
      block.vtx.foldlM (connectTransaction arith options pindex fJustCheck)
        ⟨scanned, 0, 0, [], [], validationCache⟩ = .ok state ∧
      checkReward arith options pindex block state.nFees = .ok () := by
  obtain ⟨_, -, hconnect⟩ := bind_eq_ok.1 hconnect
  obtain ⟨scanned, hscan, hconnect⟩ := bind_eq_ok.1 hconnect
  obtain ⟨final, hrun, hconnect⟩ := bind_eq_ok.1 hconnect
  obtain ⟨_, hreward, hconnect⟩ := bind_eq_ok.1 hconnect
  obtain ⟨_, -, hconnect⟩ := bind_eq_ok.1 hconnect
  cases hconnect
  exact ⟨scanned, hscan, hrun, hreward⟩

variable (scan : Bool) (block : CBlock)

lemma connectBody_restricts (view : CCoinsViewCache) (validationCache : ValidationCache) :
    Restricts (connectBody .wrapping options scan block pindex fJustCheck view validationCache)
      (connectBody .checked options scan block pindex fJustCheck view validationCache) := by
  apply bind (refl _)
  intro _
  apply bind (refl _)
  intro view
  have hzero : moneyRange 0 := by decide
  apply bind_of_ok
  · apply foldlM_of_invariant fun state => moneyRange state.nFees = true
    · exact fun state tx hfees => connectTransaction_restricts hfees tx
    · exact fun state tx next hfees hround => connectTransaction_nFees hfees hround
    · exact hzero
  · intro state hrun
    rw [checkReward_wrapping block (connectTransactions_nFees hzero hrun)]
    exact refl _

/-- A block that is accepted with wrapping arithmetic is accepted with checked arithmetic: no amount
left its range on the way. -/
theorem connectBlockWith_restricts (cache : BlockCache)
    (view : CCoinsViewCache) (validationCache : ValidationCache) : Restricts
      (connectBlockWith .wrapping options scan block cache pindex fJustCheck view validationCache)
      (connectBlockWith .checked options scan block cache pindex fJustCheck view
        validationCache) := by
  apply bind (refl _)
  intro _
  apply bind (refl _)
  intro cache
  apply bind (refl _)
  intro _
  apply Restricts.ite
  · exact .refl _
  · exact .bind (connectBody_restricts scan block _ validationCache) fun _ =>
      .refl _

end Tidecoin
