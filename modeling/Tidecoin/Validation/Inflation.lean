import Tidecoin.Lib.Total
import Tidecoin.Validation.ConnectBlock

/-!
No block creates more than its subsidy. The value of the coins that can be seen through a view is
not enough to follow the operations on it: `AddCoin` marks a new entry as fresh without asking the
base, and where the base does have a coin, that coin comes back when the fresh one is spent. The
potential of a view counts such hidden coins too. Spending a coin lowers it by the value of the
coin, adding a coin raises it by at most the value of the coin, and what can be seen is never worth
more.
-/

namespace Tidecoin

open Lib Function Store Coin List

variable {view next : CCoinsViewCache}

instance : Finite COutPoint := by
  have hinjective : Function.Injective fun outpoint : COutPoint =>
      (outpoint.hash.toFin, outpoint.n.toBitVec.toFin) := by
    rintro ⟨hash, n⟩ ⟨hash', n'⟩ heq
    obtain ⟨hhash, hn⟩ := Prod.mk.inj heq
    rw [COutPoint.mk.injEq]
    exact ⟨BitVec.toFin_inj.1 hhash, UInt32.toBitVec_inj.1 (BitVec.toFin_inj.1 hn)⟩
  exact Finite.of_injective _ hinjective

/-- The amount of a coin. -/
def Coin.value (coin : Coin) : Int := coin.out.nValue.toInt

namespace CCoinsViewCache

/-- The coins of the base behind the entries that are marked fresh. -/
def hidden (view : CCoinsViewCache) : Store COutPoint Coin := fun outpoint =>
  match view.cacheCoins.lookup outpoint with
  | none => none
  | some entry => if entry.fresh then view.base.getCoin outpoint else none

/-- The value of the coins that can be seen or may come back. -/
noncomputable def potential (view : CCoinsViewCache) : Int :=
  Store.total Coin.value view.coins + Store.total Coin.value view.hidden

/-- An entry without coin stands for a spend the base has not seen. -/
def SpentDirty (view : CCoinsViewCache) : Prop :=
  ∀ outpoint entry, view.cacheCoins.lookup outpoint = some entry → entry.coin.isSpent = true →
    entry.dirty = true ∧ entry.fresh = false

/-- No coin that can be seen or may come back has a negative amount. -/
structure Backed (view : CCoinsViewCache) : Prop where
  spentDirty : view.SpentDirty
  coinsNonneg : ∀ outpoint coin, view.coins outpoint = some coin → 0 ≤ coin.value
  hiddenNonneg : ∀ outpoint coin, view.hidden outpoint = some coin → 0 ≤ coin.value

/-- The second view differs from the first by what reading stores. -/
structure Reads (view next : CCoinsViewCache) : Prop where
  coinsEq : next.coins = view.coins
  hidden_eq : next.hidden = view.hidden
  spentDirty : view.SpentDirty → next.SpentDirty

variable {outpoint : COutPoint}

lemma hidden_congr {other : CCoinsViewCache} (hbase : other.base = view.base)
    (hentry : other.cacheCoins.lookup outpoint = view.cacheCoins.lookup outpoint) :
    other.hidden outpoint = view.hidden outpoint := by
  simp [hidden, hentry, hbase]

lemma hidden_store (view : CCoinsViewCache) (outpoint : COutPoint) (entry : CCoinsCacheEntry) :
    (view.store outpoint entry).hidden = update view.hidden outpoint
      (if entry.fresh then view.base.getCoin outpoint else none) := by
  refine eq_update_iff.2 ⟨by simp [hidden], fun other hne => ?_⟩
  exact hidden_congr rfl (lookup_store_of_ne view hne entry)

lemma hidden_drop (view : CCoinsViewCache) (outpoint : COutPoint) :
    (view.drop outpoint).hidden = update view.hidden outpoint none := by
  refine eq_update_iff.2 ⟨by simp [hidden], fun other hne => ?_⟩
  exact hidden_congr rfl (lookup_drop_of_ne view hne)

lemma SpentDirty.store (hview : view.SpentDirty) {entry : CCoinsCacheEntry}
    (hentry : entry.coin.isSpent → entry.dirty ∧ entry.fresh = false) :
    (view.store outpoint entry).SpentDirty := by
  intro other found hfound
  rcases view.lookup_store_cases hfound with ⟨rfl, rfl⟩ | hold
  · exact hentry
  · exact hview other found hold

lemma SpentDirty.drop (hview : view.SpentDirty) (outpoint : COutPoint) :
    (view.drop outpoint).SpentDirty := by
  intro other found hfound
  exact hview other found (view.lookup_of_drop hfound)

namespace Reads

lemma refl (view : CCoinsViewCache) : Reads view view := ⟨rfl, rfl, id⟩

lemma trans {middle : CCoinsViewCache} (hfirst : Reads view middle) (hsecond : Reads middle next) :
    Reads view next :=
  ⟨hsecond.coinsEq.trans hfirst.coinsEq, hsecond.hidden_eq.trans hfirst.hidden_eq,
    fun hview => hsecond.spentDirty (hfirst.spentDirty hview)⟩

lemma fetchCoin (view : CCoinsViewCache) (outpoint : COutPoint) :
    Reads view (view.fetchCoin outpoint).2 := by
  refine ⟨(view.fetchCoin_spec outpoint).2.2.1, ?_, ?_⟩
  · unfold CCoinsViewCache.fetchCoin
    split
    · rfl
    case h_2 hentry =>
      split
      case h_1 coin hbase =>
        have hunspent := view.base.getCoinUnspent outpoint coin hbase
        have hnone : view.hidden outpoint = none := by simp [hidden, hentry]
        simp only [hidden_store, hunspent]
        rw [← hnone]
        simp
      · rfl
  · intro hview
    unfold CCoinsViewCache.fetchCoin
    split
    · exact hview
    · split
      case h_1 coin hbase =>
        apply hview.store
        simp [view.base.getCoinUnspent outpoint coin hbase]
      · exact hview

lemma haveCoin (view : CCoinsViewCache) (outpoint : COutPoint) :
    Reads view (view.haveCoin outpoint).2 :=
  fetchCoin view outpoint

lemma of_cache_eq (hbase : next.base = view.base) (hcache : next.cacheCoins = view.cacheCoins) :
    Reads view next := by
  refine ⟨?_, ?_, ?_⟩
  · funext outpoint
    exact coins_congr hbase (by rw [hcache])
  · funext outpoint
    exact hidden_congr hbase (by rw [hcache])
  · intro hview
    unfold SpentDirty
    rw [hcache]
    exact hview

section

variable (view : CCoinsViewCache)

lemma setBestBlock (hashBlock : Uint256) : Reads view (view.setBestBlock hashBlock) :=
  of_cache_eq rfl rfl

lemma of_connected {view : CCoinsViewCache} {hashBlock : Uint256} {other : CCoinsViewCache}
    (heq : other = view ∨ other = view.setBestBlock hashBlock) : Reads view other := by
  rcases heq with rfl | rfl
  · exact refl _
  · exact setBestBlock view hashBlock

lemma getBestBlock : Reads view view.getBestBlock.2 := by
  unfold CCoinsViewCache.getBestBlock
  split
  · exact of_cache_eq rfl rfl
  · exact refl view

lemma haveAll (vin : List CTxIn) : Reads view (view.haveAll vin).2 := by
  induction vin generalizing view with
  | nil => exact refl view
  | cons txin vin ih =>
    unfold CCoinsViewCache.haveAll
    dsimp only
    split
    · exact (haveCoin view txin.prevout).trans (ih _)
    · exact haveCoin view txin.prevout

lemma haveInputs (tx : CTransaction) : Reads view (view.haveInputs tx).2 := by
  unfold CCoinsViewCache.haveInputs
  split
  · exact refl view
  · exact haveAll view tx.vin

end

lemma potential_eq (hreads : Reads view next) : next.potential = view.potential := by
  rw [potential, potential, hreads.coinsEq, hreads.hidden_eq]

lemma backed (hreads : Reads view next) (hview : view.Backed) : next.Backed := by
  refine ⟨hreads.spentDirty hview.spentDirty, ?_, ?_⟩
  · rw [hreads.coinsEq]
    exact hview.coinsNonneg
  · rw [hreads.hidden_eq]
    exact hview.hiddenNonneg

end Reads

lemma Valid.hidden_eq (hview : view.Valid) : view.hidden = fun _ => none := by
  funext outpoint
  unfold hidden
  split
  · rfl
  case h_2 entry hentry =>
    split
    case isTrue hfresh => exact hview.freshAbsent outpoint entry hentry hfresh
    case isFalse => rfl

lemma Valid.potential_eq (hview : view.Valid) : view.potential = total value view.coins := by
  have hzero : total value view.hidden = 0 := by
    rw [hview.hidden_eq]
    simp [total]
  rw [potential, hzero, add_zero]

lemma Backed.total_le (hview : view.Backed) : total value view.coins ≤ view.potential := by
  have hhidden : 0 ≤ total value view.hidden := total_nonneg hview.hiddenNonneg
  rw [potential]
  omega

variable {coin : Coin}

lemma spendCoin_visible (hcoin : view.coins outpoint = some coin) :
    (view.spendCoin outpoint).1 = some coin ∧
      (view.spendCoin outpoint).2.coins = update view.coins outpoint (view.hidden outpoint) ∧
      (view.spendCoin outpoint).2.hidden = update view.hidden outpoint none ∧
      (view.SpentDirty → (view.spendCoin outpoint).2.SpentDirty) := by
  obtain ⟨entry, hentry, rfl⟩ := fetchCoin_of_coins hcoin
  obtain ⟨hlookup, hbase, -, -⟩ := view.fetchCoin_spec outpoint
  have hreads := Reads.fetchCoin view outpoint
  rw [hentry] at hlookup
  have hbehind : view.hidden outpoint =
      if entry.fresh then view.base.getCoin outpoint else none := by
    rw [← hreads.hidden_eq, ← hbase]
    simp [hidden, hlookup]
  rw [spendCoin_of_fetch hentry]
  refine ⟨rfl, ?_⟩
  by_cases hfresh : entry.fresh = true
  · simp only [if_pos hfresh] at hbehind ⊢
    rw [coins_drop, hidden_drop, hbase, hreads.coinsEq, hreads.hidden_eq, hbehind]
    exact ⟨rfl, rfl, fun hview => (hreads.spentDirty hview).drop outpoint⟩
  · simp only [if_neg hfresh] at hbehind ⊢
    rw [coins_store, hidden_store, hreads.coinsEq, hreads.hidden_eq, hbehind]
    refine ⟨rfl, ?_, fun hview => (hreads.spentDirty hview).store fun _ => ⟨rfl, ?_⟩⟩
    · simp [if_neg hfresh]
    · exact Bool.eq_false_iff.2 hfresh

lemma spendCoin_potential (hview : view.Backed) (hcoin : view.coins outpoint = some coin) :
    (view.spendCoin outpoint).2.Backed ∧
      (view.spendCoin outpoint).2.potential = view.potential - coin.value := by
  obtain ⟨-, hcoins, hhidden, hdirty⟩ := spendCoin_visible hcoin
  constructor
  · refine ⟨hdirty hview.spentDirty, ?_, ?_⟩
    · rw [hcoins]
      exact forall_update hview.coinsNonneg (hview.hiddenNonneg outpoint)
    · rw [hhidden]
      exact forall_update hview.hiddenNonneg (by simp)
  · rw [potential, potential, hcoins, hhidden, total_update, total_update, hcoin, worth_some,
      worth_none]
    ring

section

variable {possibleOverwrite : Bool}

lemma addCoin_ok (hview : view.Backed)
    (hadd : view.addCoin outpoint coin possibleOverwrite = .ok next) :
    next = view ∨ ∃ behind, next.coins = update view.coins outpoint (some coin) ∧
      next.hidden = update view.hidden outpoint behind ∧ next.SpentDirty ∧
      (behind = none ∨ behind = view.hidden outpoint ∨
        (view.hidden outpoint = none ∧ behind = view.coins outpoint)) := by
  unfold CCoinsViewCache.addCoin at hadd
  split at hadd
  · cases hadd
  case isFalse hunspent =>
    split at hadd
    · cases hadd
      exact .inl rfl
    · dsimp only at hadd
      split at hadd
      · cases hadd
      case isFalse hallowed =>
        cases hadd
        right
        have hstored : ∀ fresh, (view.store outpoint ⟨coin, true, fresh⟩).SpentDirty :=
          fun fresh => hview.spentDirty.store fun hspent => absurd hspent hunspent
        refine ⟨_, ?_, hidden_store _ _ _, hstored _, ?_⟩
        · rw [coins_store, if_neg hunspent]
        · cases hlookup : view.cacheCoins.lookup outpoint with
          | none =>
            have hhidden : view.hidden outpoint = none := by simp [hidden, hlookup]
            rw [coins_of_lookup_none hlookup]
            cases possibleOverwrite with
            | true => simp [CCoinsCacheEntry.empty]
            | false => simp [CCoinsCacheEntry.empty, hhidden]
          | some entry =>
            have hhidden : view.hidden outpoint =
                if entry.fresh then view.base.getCoin outpoint else none := by
              simp [hidden, hlookup]
            cases possibleOverwrite with
            | true => simp [hhidden]
            | false =>
              -- The entry has no coin, so it is dirty and does not become fresh.
              have hspent : entry.coin.isSpent := by simpa [hlookup] using hallowed
              obtain ⟨hdirty, hfresh⟩ := hview.spentDirty outpoint entry hlookup hspent
              simp [hdirty, hfresh]

lemma addCoin_potential (hview : view.Backed)
    (hvalue : 0 ≤ coin.value) (hadd : view.addCoin outpoint coin possibleOverwrite = .ok next) :
    next.Backed ∧ next.potential ≤ view.potential + coin.value := by
  rcases addCoin_ok hview hadd with rfl | ⟨behind, hcoins, hhidden, hdirty, hbehind⟩
  · exact ⟨hview, by omega⟩
  have hold : 0 ≤ worth value (view.coins outpoint) := by
    cases hvisible : view.coins outpoint with
    | none => exact le_rfl
    | some old => exact hview.coinsNonneg outpoint old hvisible
  have hhid : 0 ≤ worth value (view.hidden outpoint) := by
    cases hvisible : view.hidden outpoint with
    | none => exact le_rfl
    | some old => exact hview.hiddenNonneg outpoint old hvisible
  constructor
  · refine ⟨hdirty, ?_, ?_⟩
    · rw [hcoins]
      exact forall_update hview.coinsNonneg fun found hfound => Option.some_inj.1 hfound ▸ hvalue
    · rw [hhidden]
      refine forall_update hview.hiddenNonneg fun found hfound => ?_
      rcases hbehind with rfl | rfl | ⟨-, rfl⟩
      · cases hfound
      · exact hview.hiddenNonneg outpoint found hfound
      · exact hview.coinsNonneg outpoint found hfound
  · have hgain : worth value behind ≤ worth value (view.hidden outpoint) +
        worth value (view.coins outpoint) := by
      rcases hbehind with rfl | rfl | ⟨hnone, rfl⟩
      · rw [worth_none]
        omega
      · omega
      · rw [hnone, worth_none, zero_add]
    rw [potential, potential, hcoins, hhidden, total_update, total_update, worth_some]
    omega

end

lemma answer_of_coins (hcoin : view.coins outpoint = some coin) : view.answer outpoint = coin := by
  obtain ⟨entry, hentry, rfl⟩ := fetchCoin_of_coins hcoin
  simp [answer, accessCoin, hentry]

lemma haveAll_visible {vin : List CTxIn} (hall : (view.haveAll vin).1) :
    ∀ txin ∈ vin, ∃ coin, view.coins txin.prevout = some coin := by
  induction vin generalizing view with
  | nil => simp
  | cons txin vin ih =>
    unfold haveAll at hall
    rw [haveCoin_eq] at hall
    dsimp only at hall
    split at hall
    case isTrue hfound =>
      refine forall_mem_cons.2 ⟨Option.isSome_iff_exists.1 hfound, ?_⟩
      have hrest := ih hall
      rwa [(Reads.fetchCoin view txin.prevout).coinsEq] at hrest
    case isFalse => cases hall

end CCoinsViewCache

open CCoinsViewCache

/-- The value of the coins the inputs name. -/
def inputsValue (view : CCoinsViewCache) (vin : List CTxIn) : Int :=
  (vin.map fun txin => (view.answer txin.prevout).value).sum

lemma spendInputs_potential {vin : List CTxIn} {vprevout : CTxUndo} (hview : view.Backed)
    (hnodup : (vin.map CTxIn.prevout).Nodup)
    (hvisible : ∀ txin ∈ vin, ∃ coin, view.coins txin.prevout = some coin)
    (hspend : spendInputs view vin = .ok (vprevout, next)) :
    next.Backed ∧ next.potential = view.potential - inputsValue view vin := by
  induction vin generalizing view vprevout with
  | nil =>
    cases hspend
    exact ⟨hview, by simp [inputsValue]⟩
  | cons txin vin ih =>
    rw [map_cons, nodup_cons] at hnodup
    obtain ⟨⟨coin, hcoin⟩, hothers⟩ := forall_mem_cons.1 hvisible
    obtain ⟨hfirst, hcoins, -, -⟩ := spendCoin_visible hcoin
    obtain ⟨hbacked, hpotential⟩ := spendCoin_potential hview hcoin
    -- The other inputs name other coins, which are still there.
    have hkept : ∀ other ∈ vin,
        (view.spendCoin txin.prevout).2.coins other.prevout = view.coins other.prevout := by
      intro other hmem
      have hne : other.prevout ≠ txin.prevout := fun heq => hnodup.1 (heq ▸ mem_map_of_mem hmem)
      rw [hcoins, update_of_ne hne]
    unfold spendInputs at hspend
    split at hspend
    · cases hspend
    case h_2 spent after hpair =>
      obtain ⟨⟨undo, final⟩, hrest, hspend⟩ := bind_eq_ok.1 hspend
      cases hspend
      rw [hpair] at hbacked hpotential hkept
      have hvisible' : ∀ other ∈ vin, ∃ coin, after.coins other.prevout = some coin := by
        intro other hmem
        rw [hkept other hmem]
        exact hothers other hmem
      obtain ⟨hfinal, hvalue⟩ := ih hbacked hnodup.2 hvisible' hrest
      refine ⟨hfinal, ?_⟩
      have hsame : inputsValue after vin = inputsValue view vin := by
        unfold inputsValue
        congr 1
        apply map_congr_left
        intro other hmem
        obtain ⟨found, hfound⟩ := hothers other hmem
        rw [answer_of_coins hfound, answer_of_coins ((hkept other hmem).trans hfound)]
      have hcons : inputsValue view (txin :: vin) = coin.value + inputsValue view vin := by
        rw [inputsValue, map_cons, sum_cons, answer_of_coins hcoin, inputsValue]
      rw [hvalue, hpotential, hsame, hcons]
      ring

lemma addOutputs_potential {txid : Uint256} {nHeight : Int} {fCoinbase : Bool} {index : Nat}
    {vout : List CTxOut} (hview : view.Backed)
    (hvout : ∀ txout ∈ vout, moneyRange txout.nValue.toInt)
    (hadd : addOutputs txid nHeight fCoinbase false view index vout = .ok next) :
    next.Backed ∧ next.potential ≤ view.potential + outputsValue vout := by
  induction vout generalizing view index with
  | nil =>
    cases hadd
    exact ⟨hview, by simp [outputsValue]⟩
  | cons txout vout ih =>
    obtain ⟨middle, hfirst, hrest⟩ := bind_eq_ok.1 hadd
    obtain ⟨hmoney, hothers⟩ := forall_mem_cons.1 hvout
    have hvalue : 0 ≤ (ofTxOut txout nHeight fCoinbase).value := (moneyRange_iff.1 hmoney).1
    obtain ⟨hmiddle, hgain⟩ := addCoin_potential hview hvalue hfirst
    obtain ⟨hfinal, htotal⟩ := ih hmiddle hothers hrest
    refine ⟨hfinal, ?_⟩
    have hcons : outputsValue (txout :: vout) =
        (ofTxOut txout nHeight fCoinbase).value + outputsValue vout := by
      simp [outputsValue, ofTxOut, value]
    omega

variable [Crypto]

lemma updateCoins_potential {tx : CTransaction} {nHeight : Int} {txundo : CTxUndo}
    (hview : view.Backed)
    (htx : checkTransaction tx = .ok ())
    (hvisible : tx.isCoinBase = false →
      ∀ txin ∈ tx.vin, ∃ coin, view.coins txin.prevout = some coin)
    (hupdate : updateCoins tx view nHeight = .ok (txundo, next)) : next.Backed ∧ next.potential ≤
      view.potential - (if tx.isCoinBase then 0 else inputsValue view tx.vin) +
        outputsValue tx.vout := by
  obtain ⟨-, hnodup, hvout, -⟩ := checkTransaction_ok htx
  obtain ⟨⟨undo, middle⟩, hspend, hupdate⟩ := bind_eq_ok.1 hupdate
  obtain ⟨final, hadd, hupdate⟩ := bind_eq_ok.1 hupdate
  cases hupdate
  have hspent : middle.Backed ∧ middle.potential =
      view.potential - (if tx.isCoinBase then 0 else inputsValue view tx.vin) := by
    unfold markInputsSpent at hspend
    split at hspend
    case isTrue hcoinbase =>
      cases hspend
      exact ⟨hview, by rw [if_pos hcoinbase, sub_zero]⟩
    case isFalse hcoinbase =>
      rw [if_neg hcoinbase]
      exact spendInputs_potential hview hnodup (hvisible (Bool.eq_false_iff.2 hcoinbase)) hspend
  obtain ⟨hmiddle, hvalue⟩ := hspent
  have hgain := addOutputs_potential hmiddle (checkOutputs_moneyRange hvout) hadd
  rw [hvalue] at hgain
  exact hgain

section

variable {options : ConnectOptions} {pindex : CBlockIndex} {fJustCheck : Bool}

variable {state next : ConnectState}

lemma connectInputs_present {arith : Arithmetic} {tx : CTransaction} {next : ConnectState}
    (hround : connectInputs arith options pindex tx state = .ok next) : Reads state.view next.view ∧
      (tx.isCoinBase = false →
        ∀ txin ∈ tx.vin, ∃ coin, next.view.coins txin.prevout = some coin) := by
  rcases connectInputs_ok hround with ⟨hcoinbase, rfl⟩ | ⟨hcoinbase, txfee, hcheck, -⟩
  · refine ⟨.refl _, fun hfalse => ?_⟩
    rw [hcoinbase] at hfalse
    cases hfalse
  · obtain ⟨hall, hnext⟩ := checkTxInputs_found hcheck
    have hreads := Reads.haveInputs state.view tx
    rw [hnext, hreads.coinsEq]
    refine ⟨hreads, fun _ => haveAll_visible ?_⟩
    rwa [haveInputs, hcoinbase] at hall

/-- The amounts of an accepted transaction that is no coinbase: the fee is the difference between
the coins it spends and those it makes. -/
theorem connectInputs_fee {tx : CTransaction} (hcoinbase : tx.isCoinBase = false)
    (hround : connectInputs .checked options pindex tx state = .ok next) :
    Reads state.view next.view ∧
      (∀ txin ∈ tx.vin, ∃ coin, next.view.coins txin.prevout = some coin) ∧
      next.nFees = state.nFees + (inputsValue next.view tx.vin - outputsValue tx.vout) := by
  obtain ⟨hreads, hvisible⟩ := connectInputs_present hround
  refine ⟨hreads, hvisible hcoinbase, ?_⟩
  rcases connectInputs_ok hround with ⟨htrue, -⟩ | ⟨-, txfee, hcheck, hfees, -⟩
  · rw [hcoinbase] at htrue
    cases htrue
  · rw [Arithmetic.compute_checked_eq_ok hfees, (checkTxInputs_checked hcheck).2.2.1]
    rfl

variable [TransactionChecker]

lemma connectTransaction_potential {tx : CTransaction} (hview : state.view.Backed)
    (htx : checkTransaction tx = .ok ())
    (hround : connectTransaction .checked options pindex fJustCheck state tx = .ok next) :
    next.view.Backed ∧ next.view.potential + next.nFees ≤
      state.view.potential + state.nFees + (if tx.isCoinBase then outputsValue tx.vout else 0) := by
  obtain ⟨checked, txundo, hinputs, hupdate, hfees⟩ := connectTransaction_ok hround
  obtain ⟨hreads, hvisible⟩ := connectInputs_present hinputs
  obtain ⟨hbacked, hgain⟩ := updateCoins_potential (hreads.backed hview) htx hvisible hupdate
  rw [hreads.potential_eq] at hgain
  rcases connectInputs_ok hinputs with ⟨hcoinbase, rfl⟩ | ⟨hcoinbase, -⟩
  · rw [if_pos hcoinbase] at hgain ⊢
    exact ⟨hbacked, by omega⟩
  · have hfee := (connectInputs_fee hcoinbase hinputs).2.2
    rw [hcoinbase, if_neg Bool.false_ne_true] at hgain ⊢
    exact ⟨hbacked, by omega⟩

lemma connectTransactions_potential {vtx : List CTransaction} (hview : state.view.Backed)
    (hcoinbase : ∀ tx ∈ vtx, tx.isCoinBase = false)
    (hvtx : ∀ tx ∈ vtx, checkTransaction tx = .ok ())
    (hrun : vtx.foldlM (connectTransaction .checked options pindex fJustCheck) state = .ok next) :
    next.view.Backed ∧ next.view.potential + next.nFees ≤ state.view.potential + state.nFees := by
  induction vtx generalizing state with
  | nil =>
    cases hrun
    exact ⟨hview, le_rfl⟩
  | cons tx vtx ih =>
    obtain ⟨middle, hround, hrun⟩ := bind_eq_ok.1 hrun
    obtain ⟨hfirst, hothers⟩ := forall_mem_cons.1 hcoinbase
    obtain ⟨htx, hrest⟩ := forall_mem_cons.1 hvtx
    obtain ⟨hmiddle, hgain⟩ := connectTransaction_potential hview htx hround
    obtain ⟨hfinal, htotal⟩ := ih hmiddle hothers hrest hrun
    rw [hfirst, if_neg nofun] at hgain
    exact ⟨hfinal, by omega⟩

omit [Crypto] [TransactionChecker] in
lemma Reads.haveOutputs (txid : Uint256) (view : CCoinsViewCache) (index : Nat)
    (vout : List CTxOut) : Reads view (haveOutputs txid view index vout).2 := by
  induction vout generalizing view index with
  | nil => exact Reads.refl view
  | cons txout vout ih => exact (Reads.haveCoin view _).trans (ih _ _)

omit [TransactionChecker] in
lemma Reads.haveBlockOutputs (view : CCoinsViewCache) (vtx : List CTransaction) :
    Reads view (haveBlockOutputs view vtx).2 := by
  induction vtx generalizing view with
  | nil => exact Reads.refl view
  | cons tx vtx ih => exact (Reads.haveOutputs tx.getHash view 0 tx.vout).trans (ih _)

variable {block : CBlock}

omit [TransactionChecker] in
lemma Reads.checkBIP30 {scan : Bool} {next : CCoinsViewCache}
    (hscan : checkBIP30 scan block view = .ok next) : Reads view next := by
  unfold Tidecoin.checkBIP30 at hscan
  split at hscan
  · obtain ⟨_, -, hscan⟩ := bind_eq_ok.1 hscan
    cases hscan
    exact Reads.haveBlockOutputs view block.vtx
  · cases hscan
    exact .refl view

omit [Crypto] [TransactionChecker] in
lemma checkReward_checked {coinbase : CTransaction} {nFees : Int}
    (hhead : block.vtx.head? = some coinbase)
    (hreward : checkReward .checked options pindex block nFees = .ok ()) :
    outputsValue coinbase.vout ≤ nFees + getBlockSubsidy pindex.nHeight options.params := by
  obtain ⟨blockReward, hsum, hreward⟩ := bind_eq_ok.1 hreward
  rw [hhead] at hreward
  obtain ⟨valueOut, hvalue, hreward⟩ := bind_eq_ok.1 hreward
  have hexact := Arithmetic.compute_checked_eq_ok hsum
  rw [← hexact, ← (getValueOut_checked hvalue).1]
  exact require_eq_ok.1 hreward

variable {scan : Bool} {validationCache : ValidationCache}

lemma connectBody_potential (hview : view.Backed) (hbody : checkBlockBody block = .ok ())
    (hconnect : connectBody .checked options scan block pindex fJustCheck view validationCache =
      .ok state) :
    state.view.Backed ∧
      state.view.potential ≤ view.potential + getBlockSubsidy pindex.nHeight options.params := by
  obtain ⟨coinbase, vtx, hvtx, hcoinbase, hothers, hchecks⟩ := checkBlockBody_ok hbody
  obtain ⟨scanned, hscan, hrun, hreward⟩ := connectBody_ok hconnect
  have hreads := Reads.checkBIP30 hscan
  rw [hvtx, foldlM_cons] at hrun
  obtain ⟨first, hround, hrun⟩ := bind_eq_ok.1 hrun
  rw [hvtx] at hchecks
  obtain ⟨htx, hrest⟩ := forall_mem_cons.1 hchecks
  obtain ⟨hfirst, hgain⟩ := connectTransaction_potential (hreads.backed hview) htx hround
  obtain ⟨hfinal, htotal⟩ := connectTransactions_potential hfirst hothers hrest hrun
  have hlimit := checkReward_checked (by rw [hvtx, head?_cons]) hreward
  dsimp only at hgain
  rw [if_pos hcoinbase, hreads.potential_eq] at hgain
  exact ⟨hfinal, by omega⟩

lemma connectBlockWith_potential {cache : BlockCache}
    {connected : Connected} (hsound : cache.fChecked → checkBlockBody block = .ok ())
    (hview : view.Backed)
    (haccept : connectBlockWith .checked options scan block cache pindex fJustCheck view
      validationCache =
      .ok connected) :
    checkBlockBody block = .ok () ∧ connected.view.Backed ∧ connected.view.potential ≤
      view.potential + getBlockSubsidy pindex.nHeight options.params := by
  obtain ⟨⟨cache', hagain⟩, final, hfinal, hcases⟩ := connectBlockWith_ok haccept
  have hbody := checkAgain_body hsound hagain
  have hreads := Reads.of_connected hfinal
  have hbest := Reads.getBestBlock view
  have hgain : final.Backed ∧ final.potential ≤
      view.potential + getBlockSubsidy pindex.nHeight options.params := by
    rcases hcases with ⟨-, rfl⟩ | ⟨-, state, hconnect, rfl⟩
    · have hsubsidy := getBlockSubsidy_nonneg pindex.nHeight options.params
      rw [hbest.potential_eq]
      exact ⟨hbest.backed hview, by omega⟩
    · rw [← hbest.potential_eq]
      exact connectBody_potential (hbest.backed hview) hbody hconnect
  rw [hreads.potential_eq]
  exact ⟨hbody, hreads.backed hgain.1, hgain.2⟩

end

/-- A call of `ConnectBlock`. A block whose `fChecked` is set has passed its checks. -/
structure ConnectCall where
  options : ConnectOptions
  block : CBlock
  cache : BlockCache
  pindex : CBlockIndex
  fJustCheck : Bool
  cacheSound : cache.fChecked = true → checkBlockBody block = .ok ()

/-- `GetBlockSubsidy` at the height of the call. -/
def ConnectCall.subsidy (call : ConnectCall) : Int :=
  getBlockSubsidy call.pindex.nHeight call.options.params

variable [TransactionChecker]

/-- `ConnectBlock` on one view for the blocks in order, while it accepts them. -/
def connectAll (arith : Arithmetic) : List ConnectCall → CCoinsViewCache → ValidationCache →
    Except (Failure BlockValidationResult) CCoinsViewCache
  | [], view, _ => .ok view
  | call :: calls, view, validationCache => do
      let connected ← connectBlock arith call.options call.block call.cache call.pindex
        call.fJustCheck view validationCache
      connectAll arith calls connected.view connected.validationCache

lemma connectAll_restricts (calls : List ConnectCall) (view : CCoinsViewCache)
    (validationCache : ValidationCache) :
    Restricts (connectAll .wrapping calls view validationCache)
      (connectAll .checked calls view validationCache) := by
  induction calls generalizing view validationCache with
  | nil => exact Restricts.refl _
  | cons call calls ih =>
    apply Restricts.bind
    · exact connectBlockWith_restricts _ _ _ _ _
    · intro connected
      exact ih connected.view connected.validationCache

lemma connectAll_potential {calls : List ConnectCall} {final : CCoinsViewCache}
    {validationCache : ValidationCache} (hview : view.Backed)
    (haccept : connectAll .checked calls view validationCache = .ok final) :
    (∀ call ∈ calls, checkBlockBody call.block = .ok ()) ∧ final.Backed ∧
      final.potential ≤ view.potential + (calls.map ConnectCall.subsidy).sum := by
  induction calls generalizing view validationCache with
  | nil =>
    cases haccept
    exact ⟨by simp, hview, by simp⟩
  | cons call calls ih =>
    obtain ⟨connected, hfirst, hrest⟩ := bind_eq_ok.1 haccept
    obtain ⟨hbody, hnext, hgain⟩ := connectBlockWith_potential call.cacheSound hview hfirst
    obtain ⟨hbodies, hfinal, htotal⟩ := ih hnext hrest
    refine ⟨forall_mem_cons.2 ⟨hbody, hbodies⟩, hfinal, ?_⟩
    rw [map_cons, sum_cons, ConnectCall.subsidy]
    omega

/-- No inflation. For every view with right flags and without negative amounts and every sequence of
blocks that `ConnectBlock` accepts on it, as the machine computes, the coins are afterwards worth at
most the subsidies more; and no amount left the range of `int64_t` on the way, neither in
`ConnectBlock` nor in the sums of `CheckTransaction`. -/
theorem connectAll_no_inflation (calls : List ConnectCall) (view final : CCoinsViewCache)
    (validationCache : ValidationCache) (hview : view.Valid)
    (hcoins : ∀ outpoint coin, view.coins outpoint = some coin → 0 ≤ coin.value)
    (haccept : connectAll .wrapping calls view validationCache = .ok final) :
    Store.total Coin.value final.coins ≤
        Store.total Coin.value view.coins + (calls.map ConnectCall.subsidy).sum ∧
      connectAll .checked calls view validationCache = .ok final ∧
      ∀ call ∈ calls, ∀ tx ∈ call.block.vtx, checkOutputsWith .checked 0 tx.vout = .ok () := by
  have hchecked := connectAll_restricts calls view validationCache final haccept
  have hbacked : view.Backed := by
    refine ⟨hview.spentDirty, hcoins, ?_⟩
    rw [hview.hidden_eq]
    intro outpoint coin hcoin
    cases hcoin
  obtain ⟨hbodies, hfinal, hgain⟩ := connectAll_potential hbacked hchecked
  rw [hview.potential_eq] at hgain
  refine ⟨hfinal.total_le.trans hgain, hchecked, ?_⟩
  intro call hcall tx htx
  obtain ⟨_, _, _, _, _, hchecks⟩ := checkBlockBody_ok (hbodies call hcall)
  obtain ⟨-, -, hvout, -⟩ := checkTransaction_ok (hchecks tx htx)
  rw [checkOutputsWith_checked (by decide), hvout]
  rfl

lemma connectBlockWith_coinbase {arith : Arithmetic} {options : ConnectOptions} {scan : Bool}
    {block : CBlock} {cache : BlockCache} {pindex : CBlockIndex} {fJustCheck : Bool}
    {validationCache : ValidationCache} {connected : Connected} {coinbase : CTransaction}
    {txout : CTxOut}
    (hvtx : block.vtx = [coinbase]) (hcoinbase : coinbase.isCoinBase)
    (hvout : coinbase.vout = [txout])
    (hunspent : txout.isNull = false) (hspendable : Script.isUnspendable txout.scriptPubKey = false)
    (hgenesis : block.getHash ≠ options.params.hashGenesisBlock)
    (haccept : connectBlockWith arith options scan block cache pindex fJustCheck view
      validationCache =
      .ok connected) : connected.view.coins = update view.coins ⟨coinbase.getHash, 0⟩
      (some (ofTxOut txout pindex.nHeight true)) := by
  obtain ⟨-, final, hfinal, ⟨hgenesis', -⟩ | ⟨-, state, hconnect, rfl⟩⟩ :=
    connectBlockWith_ok haccept
  · exact absurd hgenesis' hgenesis
  obtain ⟨scanned, hscan, hrun, -⟩ := connectBody_ok hconnect
  rw [hvtx, foldlM_cons] at hrun
  obtain ⟨round, hround, hrun⟩ := bind_eq_ok.1 hrun
  cases hrun
  obtain ⟨checked, txundo, hinputs, hupdate, -⟩ := connectTransaction_ok hround
  unfold connectInputs at hinputs
  rw [if_pos hcoinbase] at hinputs
  cases hinputs
  have hcoin : (ofTxOut txout pindex.nHeight true).isSpent = false := hunspent
  have hscript : Script.isUnspendable
      (ofTxOut txout pindex.nHeight true).out.scriptPubKey = false := hspendable
  have hstored : state.view.coins = update scanned.coins ⟨coinbase.getHash, 0⟩
      (some (ofTxOut txout pindex.nHeight true)) := by
    unfold updateCoins markInputsSpent addCoins at hupdate
    rw [if_pos hcoinbase, hvout, hcoinbase] at hupdate
    simp only [addOutputs, CCoinsViewCache.addCoin, hcoin, hscript, bind, Except.bind,
      Bool.false_eq_true, if_false, Bool.not_true, Bool.false_and, Bool.or_false] at hupdate
    have hview : _ = state.view := congrArg Prod.snd (Except.ok.inj hupdate)
    rw [← hview, coins_store, hcoin]
    rfl
  rw [(Reads.of_connected hfinal).coinsEq, hstored, (Reads.checkBIP30 hscan).coinsEq,
    (Reads.getBestBlock view).coinsEq]

/-- A coinbase that pays the whole subsidy, in a block at height 2. -/
def mintCoinbase : CTransaction :=
  ⟨[⟨⟨0, 0xffffffff⟩, [0x52, 0x00], sequenceFinal, []⟩], [⟨4000000000, [op1]⟩], 1, 0⟩

def mintBlock (vtx : List CTransaction) : CBlock :=
  let root := @computeMerkleRoot Crypto.digits (vtx.map (@CTransaction.getHash Crypto.digits))
  ⟨⟨⟨4, 7, root.1, 0, 0x2001ffff, 0⟩, none⟩, vtx⟩

def mintIndex (block : CBlock) : CBlockIndex :=
  ⟨⟨@CPureBlockHeader.getHash Crypto.digits block.toCPureBlockHeader, 2, 0, 4, 0, 0, 0, 0⟩,
    [⟨7, 1, 0, 4, 0, 0, 0, 0⟩, ⟨6, 0, 0, 4, 0, 0, 0, 0⟩]⟩

def mintCall (vtx : List CTransaction) : @ConnectCall Crypto.digits :=
  @ConnectCall.mk Crypto.digits ⟨testNetParams, 7, true, false, true⟩ (mintBlock vtx) .fresh
    (mintIndex (mintBlock vtx)) false
    fun hflag => absurd hflag Bool.false_ne_true

def mintOutpoint : COutPoint := ⟨@CTransaction.getHash Crypto.digits mintCoinbase, 0⟩

/-- A coinbase with a fee, and the transaction that pays it from the coin there. -/
def mintSpend : List CTransaction :=
  [{ mintCoinbase with vout := [⟨4000000002, [op1]⟩] },
    ⟨[⟨mintOutpoint, [], sequenceFinal, []⟩], [⟨3, [op1]⟩], 1, 0⟩]

omit [Crypto] [TransactionChecker] in
lemma mintCoins_unspent {old : Coin} (hold : old.isSpent = false) (outpoint : COutPoint)
    (coin : Coin)
    (hcoin : update (fun _ => none) mintOutpoint (some old) outpoint = some coin) :
    coin.isSpent = false :=
  forall_update (P := fun _ coin => coin.isSpent = false) (by simp)
    (fun found hfound => Option.some_inj.1 hfound ▸ hold) outpoint coin hcoin

/-- A coin with the given amount. -/
def mintCoin (amount : BitVec 64) : Coin := ⟨⟨amount, [op1]⟩, false, 1⟩

omit [Crypto] [TransactionChecker] in
lemma mintCoin_unspent : (mintCoin 5).isSpent = false ∧ (mintCoin (-5)).isSpent = false := by
  decide

/-- An empty cache over one coin, at the outpoint of the new coinbase. -/
def mintView (old : Coin) (hold : old.isSpent = false) : CCoinsViewCache where
  base := ⟨Function.update (fun _ => none) mintOutpoint (some old), 7, mintCoins_unspent hold⟩
  hashBlock := 0
  cacheCoins := ∅

/-- The call on a view with the given coin. -/
def mintRun (arith : Arithmetic) (vtx : List CTransaction) (old : Coin)
    (hold : old.isSpent = false) : Except (Failure BlockValidationResult) CCoinsViewCache :=
  @connectAll Crypto.digits .rejecting arith [mintCall vtx] (mintView old hold) ⟨3,
    CuckooCache.setup 0 2 1⟩

omit [Crypto] [TransactionChecker]

lemma mintView_coins (old : Coin) (hold : old.isSpent = false) :
    (mintView old hold).coins = update (fun _ => none) mintOutpoint (some old) := by
  funext outpoint
  exact coins_of_lookup_none rfl

lemma mintView_total (old : Coin) (hold : old.isSpent = false) :
    total value (mintView old hold).coins = old.value := by
  rw [mintView_coins, total_update]
  simp [total]

/-- The block that spends the coin is accepted, with the fee in its coinbase. -/
theorem connectAll_no_inflation_mint :
    ∃ final, mintRun .wrapping mintSpend (mintCoin 5) mintCoin_unspent.1 = .ok final ∧
      Store.total Coin.value final.coins ≤ 5 + 40 * coin ∧
      mintRun .checked mintSpend (mintCoin 5) mintCoin_unspent.1 = .ok final := by
  have haccept : (mintRun .wrapping mintSpend (mintCoin 5) mintCoin_unspent.1).isOk := by
    decide +kernel
  obtain ⟨final, hfinal⟩ := exists_of_isOk haccept
  have hvalid : (mintView (mintCoin 5) mintCoin_unspent.1).Valid :=
    ⟨fun _ _ hentry => (nomatch hentry), fun _ _ hentry => (nomatch hentry)⟩
  have hnonneg : ∀ outpoint coin,
      (mintView (mintCoin 5) mintCoin_unspent.1).coins outpoint = some coin → 0 ≤ coin.value := by
    rw [mintView_coins]
    exact forall_update (by simp) fun found hfound => Option.some_inj.1 hfound ▸ (by decide)
  obtain ⟨htotal, hchecked, -⟩ := @connectAll_no_inflation .digits .rejecting [mintCall mintSpend]
    (mintView (mintCoin 5) mintCoin_unspent.1) final ⟨3, .setup 0 2 1⟩ hvalid hnonneg hfinal
  have hsubsidy : ([mintCall mintSpend].map (@ConnectCall.subsidy .digits)).sum = 40 * coin := by
    decide +kernel
  rw [mintView_total, hsubsidy] at htotal
  exact ⟨final, hfinal, htotal, hchecked⟩

/-- A coin of negative amount that the coinbase overwrites: the coins are worth more than the
subsidy accounts for. -/
theorem connectAll_overwrites_negative :
    ∃ final, mintRun .wrapping [mintCoinbase] (mintCoin (-5)) mintCoin_unspent.2 = .ok final ∧
      Store.total Coin.value (mintView (mintCoin (-5)) mintCoin_unspent.2).coins +
        ([mintCall [mintCoinbase]].map (@ConnectCall.subsidy Crypto.digits)).sum <
          Store.total Coin.value final.coins := by
  have haccept : (mintRun .wrapping [mintCoinbase] (mintCoin (-5)) mintCoin_unspent.2).isOk := by
    decide +kernel
  obtain ⟨final, hfinal⟩ := exists_of_isOk haccept
  refine ⟨final, hfinal, ?_⟩
  obtain ⟨connected, hcall, hrest⟩ := bind_eq_ok.1 hfinal
  cases hrest
  have hcoins := @connectBlockWith_coinbase _ .digits .rejecting _ _ _ _ _ _ _ _ _ mintCoinbase
    ⟨4000000000, [op1]⟩ rfl rfl rfl rfl rfl (by decide +kernel) hcall
  have hsubsidy :
      ([mintCall [mintCoinbase]].map (@ConnectCall.subsidy .digits)).sum = 40 * coin := by
    decide +kernel
  have houtpoint : (⟨@CTransaction.getHash .digits mintCoinbase, 0⟩ : COutPoint) = mintOutpoint :=
    rfl
  rw [hcoins, total_update, mintView_total, mintView_coins, houtpoint, update_self,
    hsubsidy, worth_some, worth_some]
  decide

end Tidecoin
