import Tidecoin.Lib.Store
import Tidecoin.Validation.Transaction
import Mathlib.Data.List.AList

/-!
The coin cache of `coins.h` and `coins.cpp`. A cache stands in front of a base view; an entry is
marked dirty when it may differ from the base, and fresh when the base has no unspent coin for the
outpoint, so that spending a fresh coin can forget it. Reading through the cache stores what was
read. The list of flagged entries and the memory counter serve flushing and are not part of this
module.

`coins` is what the cache stands for: the store of the coins visible through it. A cache whose
flags are right behaves as this store under every operation.
-/

namespace Tidecoin

open Lib Option Function

def CTxOut.isNull (txout : CTxOut) : Bool := txout.nValue = -1

/-- `Coin`. Its height is a bit field of 31 bits. -/
structure Coin where
  out : CTxOut
  fCoinBase : Bool
  nHeight : BitVec 31
deriving DecidableEq, Repr

namespace Coin

/-- The empty coin, and what `Clear` leaves. -/
def empty : Coin := ⟨⟨-1, []⟩, false, 0⟩

/-- The constructor from an output; the height is narrowed to the bit field. -/
def ofTxOut (out : CTxOut) (nHeight : Int) (fCoinBase : Bool) : Coin :=
  ⟨out, fCoinBase, BitVec.ofInt 31 nHeight⟩

def isSpent (coin : Coin) : Bool := coin.out.isNull

@[simp] lemma isSpent_empty : empty.isSpent := rfl

end Coin

/-- What a cache reads from the view behind it. No view returns a spent coin. -/
structure CCoinsView where
  getCoin : COutPoint → Option Coin
  getBestBlock : Uint256
  getCoinUnspent : ∀ outpoint coin, getCoin outpoint = some coin → coin.isSpent = false

/-- `CCoinsCacheEntry`: a coin with its `DIRTY` and `FRESH` flags. -/
structure CCoinsCacheEntry where
  coin : Coin
  dirty : Bool
  fresh : Bool
deriving DecidableEq, Repr

/-- A new entry: no coin and no flags. -/
def CCoinsCacheEntry.empty : CCoinsCacheEntry := ⟨Coin.empty, false, false⟩

abbrev CCoinsMap := AList fun _ : COutPoint => CCoinsCacheEntry

structure CCoinsViewCache where
  base : CCoinsView
  hashBlock : Uint256
  cacheCoins : CCoinsMap

/-- How an operation on the coins can end the program: the assertion that a coin to be added is
unspent, the `logic_error` against overwriting an unspent coin, the assertion of `UpdateCoins` that
an input was there, or the null pointer to the predecessor of a first block. -/
inductive CoinsFailure where
  | spentCoin
  | overwrite
  | missingInput
  | noPredecessor
deriving DecidableEq, Repr

namespace CCoinsViewCache

section

variable (view : CCoinsViewCache) (outpoint : COutPoint)

/-- Sets the entry of an outpoint. -/
def store (entry : CCoinsCacheEntry) : CCoinsViewCache :=
  { view with cacheCoins := view.cacheCoins.insert outpoint entry }

/-- Removes the entry of an outpoint. -/
def drop : CCoinsViewCache := { view with cacheCoins := view.cacheCoins.erase outpoint }

/-- `FetchCoin`: the cached entry, or one read from the base and stored. A spent coin of the base
would be stored as fresh. -/
def fetchCoin : Option CCoinsCacheEntry × CCoinsViewCache :=
  match view.cacheCoins.lookup outpoint with
  | some entry => (some entry, view)
  | none =>
    match view.base.getCoin outpoint with
    | some coin =>
      (some ⟨coin, false, coin.isSpent⟩, view.store outpoint ⟨coin, false, coin.isSpent⟩)
    | none => (none, view)

def getCoin : Option Coin × CCoinsViewCache :=
  let (fetched, view) := view.fetchCoin outpoint
  ((fetched.map CCoinsCacheEntry.coin).filter fun coin => !coin.isSpent, view)

/-- `AccessCoin`: the empty coin if there is none. -/
def accessCoin : Coin × CCoinsViewCache :=
  let (fetched, view) := view.fetchCoin outpoint
  ((fetched.map CCoinsCacheEntry.coin).getD Coin.empty, view)

def haveCoin : Bool × CCoinsViewCache :=
  let (fetched, view) := view.fetchCoin outpoint
  (fetched.any fun entry => !entry.coin.isSpent, view)

end

/-- `GetBestBlock`: the null hash stands for the one of the base, which is then stored. -/
def getBestBlock (view : CCoinsViewCache) : Uint256 × CCoinsViewCache :=
  if view.hashBlock = 0 then
    (view.base.getBestBlock, { view with hashBlock := view.base.getBestBlock })
  else (view.hashBlock, view)

section

variable (view : CCoinsViewCache)

def setBestBlock (hashBlock : Uint256) : CCoinsViewCache := { view with hashBlock := hashBlock }

/-- `AddCoin`. An unspendable coin is not stored. Only the entry of the cache itself is looked at:
without `possible_overwrite` the caller promises that the base has no unspent coin either. -/
def addCoin (outpoint : COutPoint) (coin : Coin) (possibleOverwrite : Bool) :
    Except CoinsFailure CCoinsViewCache :=
  if coin.isSpent then .error .spentCoin
  else if Script.isUnspendable coin.out.scriptPubKey then .ok view
  else
    let entry := (view.cacheCoins.lookup outpoint).getD .empty
    if !possibleOverwrite && !entry.coin.isSpent then .error .overwrite
    else
      -- A dirty entry is spent here but perhaps not yet in the base: it must not become fresh.
      let fresh := !possibleOverwrite && !entry.dirty
      .ok (view.store outpoint ⟨coin, true, entry.fresh || fresh⟩)

/-- `SpendCoin`, with the moved-out coin if there was an entry. -/
def spendCoin (outpoint : COutPoint) : Option Coin × CCoinsViewCache :=
  match view.fetchCoin outpoint with
  | (none, view) => (none, view)
  | (some entry, view) =>
    (some entry.coin,
      if entry.fresh then view.drop outpoint
      else view.store outpoint { entry with coin := .empty, dirty := true })

/-- The coins that can be seen through the cache. -/
def coins : Store COutPoint Coin := fun outpoint => (view.getCoin outpoint).1

end

/-- The flags mean what they say: a fresh entry has no coin in the base, and an entry without coin
stands for a spend the base has not seen. -/
structure Valid (view : CCoinsViewCache) : Prop where
  freshAbsent : ∀ outpoint entry, view.cacheCoins.lookup outpoint = some entry →
    entry.fresh = true → view.base.getCoin outpoint = none
  spentDirty : ∀ outpoint entry, view.cacheCoins.lookup outpoint = some entry →
    entry.coin.isSpent = true → entry.dirty = true ∧ entry.fresh = false

/-- The cache has right flags and stands for the given coins. -/
structure Represents (view : CCoinsViewCache) (utxos : Store COutPoint Coin) : Prop where
  valid : view.Valid
  coinsEq : view.coins = utxos

@[simp] lemma lookup_store (view : CCoinsViewCache) (outpoint : COutPoint)
    (entry : CCoinsCacheEntry) :
    (view.store outpoint entry).cacheCoins.lookup outpoint = some entry :=
  AList.lookup_insert _

variable {view : CCoinsViewCache} {outpoint : COutPoint}

section

variable (view : CCoinsViewCache)

lemma lookup_store_of_ne {other : COutPoint} (hne : other ≠ outpoint) (entry : CCoinsCacheEntry) :
    (view.store outpoint entry).cacheCoins.lookup other = view.cacheCoins.lookup other :=
  AList.lookup_insert_ne hne

@[simp] lemma lookup_drop (outpoint : COutPoint) :
    (view.drop outpoint).cacheCoins.lookup outpoint = none :=
  AList.lookup_erase _ _

lemma lookup_drop_of_ne {other : COutPoint} (hne : other ≠ outpoint) :
    (view.drop outpoint).cacheCoins.lookup other = view.cacheCoins.lookup other :=
  AList.lookup_erase_ne hne

lemma lookup_store_cases {other : COutPoint} {entry found : CCoinsCacheEntry}
    (hfound : (view.store outpoint entry).cacheCoins.lookup other = some found) :
    (other = outpoint ∧ found = entry) ∨ view.cacheCoins.lookup other = some found := by
  by_cases heq : other = outpoint
  · rw [heq, lookup_store, some.injEq] at hfound
    exact .inl ⟨heq, hfound.symm⟩
  · rw [lookup_store_of_ne view heq] at hfound
    exact .inr hfound

lemma lookup_of_drop {other : COutPoint} {found : CCoinsCacheEntry}
    (hfound : (view.drop outpoint).cacheCoins.lookup other = some found) :
    view.cacheCoins.lookup other = some found := by
  by_cases heq : other = outpoint
  · rw [heq, lookup_drop] at hfound
    cases hfound
  · rwa [lookup_drop_of_ne view heq] at hfound

@[simp] lemma base_store (outpoint : COutPoint) (entry : CCoinsCacheEntry) :
    (view.store outpoint entry).base = view.base := rfl

@[simp] lemma base_drop (outpoint : COutPoint) : (view.drop outpoint).base = view.base := rfl

end

lemma coins_of_lookup {entry : CCoinsCacheEntry}
    (hentry : view.cacheCoins.lookup outpoint = some entry) :
    view.coins outpoint = if entry.coin.isSpent then none else some entry.coin := by
  simp only [coins, getCoin, fetchCoin, hentry, map_some, filter_some]
  cases entry.coin.isSpent <;> rfl

lemma coins_of_lookup_none (hentry : view.cacheCoins.lookup outpoint = none) :
    view.coins outpoint = view.base.getCoin outpoint := by
  simp only [coins, getCoin, fetchCoin, hentry]
  cases hbase : view.base.getCoin outpoint with
  | none => rfl
  | some coin => simp [view.base.getCoinUnspent outpoint coin hbase]

variable {coin : Coin}

lemma coins_unspent (hcoin : view.coins outpoint = some coin) : coin.isSpent = false := by
  cases hentry : view.cacheCoins.lookup outpoint with
  | none =>
    rw [coins_of_lookup_none hentry] at hcoin
    exact view.base.getCoinUnspent outpoint coin hcoin
  | some entry =>
    rw [coins_of_lookup hentry] at hcoin
    split at hcoin
    · cases hcoin
    · cases hcoin
      simpa using ‹¬entry.coin.isSpent = true›

lemma coins_congr {other : CCoinsViewCache} (hbase : other.base = view.base)
    (hentry : other.cacheCoins.lookup outpoint = view.cacheCoins.lookup outpoint) :
    other.coins outpoint = view.coins outpoint := by
  cases hlookup : view.cacheCoins.lookup outpoint with
  | none => rw [coins_of_lookup_none hlookup, coins_of_lookup_none (hentry.trans hlookup), hbase]
  | some entry => rw [coins_of_lookup hlookup, coins_of_lookup (hentry.trans hlookup)]

lemma coins_store (view : CCoinsViewCache) (outpoint : COutPoint) (entry : CCoinsCacheEntry) :
    (view.store outpoint entry).coins =
      update view.coins outpoint (if entry.coin.isSpent then none else some entry.coin) := by
  refine eq_update_iff.2 ⟨coins_of_lookup (lookup_store ..), fun other hne => ?_⟩
  exact coins_congr rfl (lookup_store_of_ne view hne entry)

lemma coins_drop (view : CCoinsViewCache) (outpoint : COutPoint) :
    (view.drop outpoint).coins = update view.coins outpoint (view.base.getCoin outpoint) := by
  refine eq_update_iff.2 ⟨coins_of_lookup_none (lookup_drop ..), fun other hne => ?_⟩
  exact coins_congr rfl (lookup_drop_of_ne view hne)

lemma Valid.store (hvalid : view.Valid) {entry : CCoinsCacheEntry}
    (hfresh : entry.fresh → view.base.getCoin outpoint = none)
    (hspent : entry.coin.isSpent → entry.dirty ∧ entry.fresh = false) :
    (view.store outpoint entry).Valid := by
  constructor <;> intro other found hfound
  · rcases view.lookup_store_cases hfound with ⟨rfl, rfl⟩ | hold
    · exact hfresh
    · exact hvalid.freshAbsent other found hold
  · rcases view.lookup_store_cases hfound with ⟨rfl, rfl⟩ | hold
    · exact hspent
    · exact hvalid.spentDirty other found hold

lemma Valid.drop (hvalid : view.Valid) (outpoint : COutPoint) : (view.drop outpoint).Valid := by
  constructor <;> intro other entry hentry
  · exact hvalid.freshAbsent other entry (view.lookup_of_drop hentry)
  · exact hvalid.spentDirty other entry (view.lookup_of_drop hentry)

lemma fetchCoin_spec (view : CCoinsViewCache) (outpoint : COutPoint) :
    (view.fetchCoin outpoint).2.cacheCoins.lookup outpoint = (view.fetchCoin outpoint).1 ∧
      (view.fetchCoin outpoint).2.base = view.base ∧
      (view.fetchCoin outpoint).2.coins = view.coins ∧
      (view.Valid → (view.fetchCoin outpoint).2.Valid) := by
  cases hentry : view.cacheCoins.lookup outpoint with
  | some entry => simp [fetchCoin, hentry]
  | none =>
    cases hbase : view.base.getCoin outpoint with
    | none => simp [fetchCoin, hentry, hbase]
    | some coin =>
      have hunspent := view.base.getCoinUnspent outpoint coin hbase
      have hvisible : view.coins outpoint = some coin := by
        rw [coins_of_lookup_none hentry, hbase]
      simp only [fetchCoin, hentry, hbase]
      refine ⟨lookup_store .., rfl, ?_, fun hvalid => hvalid.store ?_ ?_⟩
      · rw [coins_store, hunspent]
        simp [← hvisible]
      · simp [hunspent]
      · simp [hunspent]

variable {utxos : Store COutPoint Coin}

lemma Represents.fetchCoin (hview : view.Represents utxos) (outpoint : COutPoint) :
    (view.fetchCoin outpoint).2.Represents utxos := by
  obtain ⟨-, -, hcoins, hvalid⟩ := view.fetchCoin_spec outpoint
  exact ⟨hvalid hview.valid, hcoins.trans hview.coinsEq⟩

lemma haveCoin_eq (view : CCoinsViewCache) (outpoint : COutPoint) :
    view.haveCoin outpoint = ((view.coins outpoint).isSome, (view.fetchCoin outpoint).2) := by
  simp only [haveCoin, coins, getCoin]
  cases (view.fetchCoin outpoint).1 with
  | none => rfl
  | some entry =>
    simp only [any_some, map_some, filter_some]
    cases entry.coin.isSpent <;> rfl

lemma Represents.setBestBlock (hview : view.Represents utxos) (hashBlock : Uint256) :
    (view.setBestBlock hashBlock).Represents utxos := by
  refine ⟨⟨hview.valid.freshAbsent, hview.valid.spentDirty⟩, ?_⟩
  rw [← hview.coinsEq]
  funext outpoint
  exact coins_congr rfl rfl

lemma fetchCoin_of_coins (hcoin : view.coins outpoint = some coin) :
    ∃ entry, (view.fetchCoin outpoint).1 = some entry ∧ entry.coin = coin := by
  simp only [coins, getCoin] at hcoin
  cases hfetch : (view.fetchCoin outpoint).1 with
  | none => simp [hfetch] at hcoin
  | some entry =>
    rw [hfetch, map_some] at hcoin
    exact ⟨entry, rfl, some.inj (eq_some_of_filter_eq_some hcoin)⟩

lemma spendCoin_of_fetch {entry : CCoinsCacheEntry}
    (hentry : (view.fetchCoin outpoint).1 = some entry) :
    view.spendCoin outpoint = (some entry.coin,
      if entry.fresh then (view.fetchCoin outpoint).2.drop outpoint
      else (view.fetchCoin outpoint).2.store outpoint
        { entry with coin := .empty, dirty := true }) := by
  rw [CCoinsViewCache.spendCoin, ← Prod.mk.eta (p := view.fetchCoin outpoint), hentry]

lemma Represents.spendCoin (hview : view.Represents utxos) (hcoin : utxos outpoint = some coin) :
    (view.spendCoin outpoint).1 = some coin ∧
      (view.spendCoin outpoint).2.Represents (utxos.erase outpoint) := by
  rw [← hview.coinsEq] at hcoin
  obtain ⟨entry, hentry, rfl⟩ := fetchCoin_of_coins hcoin
  obtain ⟨hlookup, hbase, hcoins, hvalid⟩ := view.fetchCoin_spec outpoint
  specialize hvalid hview.valid
  rw [hentry] at hlookup
  rw [spendCoin_of_fetch hentry]
  refine ⟨rfl, ?_⟩
  by_cases hfresh : entry.fresh = true
  · -- The base has no coin behind a fresh entry, so nothing reappears.
    have habsent := hvalid.freshAbsent outpoint entry hlookup hfresh
    rw [if_pos hfresh]
    refine ⟨hvalid.drop outpoint, ?_⟩
    rw [coins_drop, habsent, hcoins, hview.coinsEq, Store.erase]
  · rw [if_neg hfresh]
    refine ⟨hvalid.store (fun hflag => absurd hflag hfresh) fun _ => ⟨rfl, ?_⟩, ?_⟩
    · simpa using hfresh
    · rw [coins_store, hcoins, hview.coinsEq, Store.erase]
      rfl

/-- Where a coin may be added, its entry becomes fresh only if the base has no coin. -/
lemma Valid.addable (hvalid : view.Valid) {possibleOverwrite : Bool}
    (habsent : view.coins outpoint = none ∨ possibleOverwrite) :
    (possibleOverwrite ∨ ((view.cacheCoins.lookup outpoint).getD .empty).coin.isSpent) ∧
      (((view.cacheCoins.lookup outpoint).getD .empty).fresh ||
        (!possibleOverwrite && !((view.cacheCoins.lookup outpoint).getD .empty).dirty) →
          view.base.getCoin outpoint = none) := by
  cases hlookup : view.cacheCoins.lookup outpoint with
  | none =>
    rw [coins_of_lookup_none hlookup] at habsent
    refine ⟨.inr rfl, fun hfresh => habsent.resolve_right ?_⟩
    simpa [CCoinsCacheEntry.empty] using hfresh
  | some entry =>
    have hfresh := hvalid.freshAbsent outpoint entry hlookup
    have hspent := hvalid.spentDirty outpoint entry hlookup
    rw [coins_of_lookup hlookup] at habsent
    cases hcoin : entry.coin.isSpent <;> cases possibleOverwrite <;> simp_all

lemma Represents.addCoin (hview : view.Represents utxos) (hunspent : coin.isSpent = false)
    (hspendable : Script.isUnspendable coin.out.scriptPubKey = false) (possibleOverwrite : Bool)
    (habsent : utxos outpoint = none ∨ possibleOverwrite) :
    ∃ view', view.addCoin outpoint coin possibleOverwrite = .ok view' ∧
      view'.Represents (utxos.insert outpoint coin) := by
  rw [← hview.coinsEq] at habsent ⊢
  obtain ⟨hallowed, hfresh⟩ := hview.valid.addable habsent
  have hchecked : ¬(!possibleOverwrite &&
      !((view.cacheCoins.lookup outpoint).getD .empty).coin.isSpent) := by
    rcases hallowed with h | h <;> simp [h]
  refine ⟨view.store outpoint ⟨coin, true, _⟩, ?_, hview.valid.store hfresh (by simp [hunspent]),
    ?_⟩
  · rw [CCoinsViewCache.addCoin, hunspent, hspendable]
    exact if_neg hchecked
  · rw [coins_store, Store.insert, if_neg (by simp [hunspent])]

lemma addCoin_unspendable (view : CCoinsViewCache) (outpoint : COutPoint)
    (hunspent : coin.isSpent = false)
    (hunspendable : Script.isUnspendable coin.out.scriptPubKey) (possibleOverwrite : Bool) :
    view.addCoin outpoint coin possibleOverwrite = .ok view := by
  simp [addCoin, hunspent, hunspendable]

end CCoinsViewCache

/-- The loop of `AddCoins` from output `index` on. -/
def addOutputs (txid : Uint256) (nHeight : Int) (fCoinbase checkForOverwrite : Bool) :
    CCoinsViewCache → (index : Nat) → List CTxOut → Except CoinsFailure CCoinsViewCache
  | cache, _, [] => .ok cache
  | cache, index, txout :: vout => do
      let outpoint : COutPoint := ⟨txid, UInt32.ofNat index⟩
      let (overwrite, cache) :=
        if checkForOverwrite then cache.haveCoin outpoint else (fCoinbase, cache)
      let cache ← cache.addCoin outpoint (Coin.ofTxOut txout nHeight fCoinbase) overwrite
      addOutputs txid nHeight fCoinbase checkForOverwrite cache (index + 1) vout

def addCoins [Crypto] (cache : CCoinsViewCache) (tx : CTransaction) (nHeight : Int)
    (checkForOverwrite : Bool) : Except CoinsFailure CCoinsViewCache :=
  addOutputs tx.getHash nHeight tx.isCoinBase checkForOverwrite cache 0 tx.vout

def maxOutputsPerBlock : Nat :=
  maxBlockWeight / (witnessScaleFactor * (CTransaction.serTxOut Coin.empty.out).length)

/-- The loop of `AccessByTxid` from output `n` on. -/
def accessFrom (txid : Uint256) :
    CCoinsViewCache → (n remaining : Nat) → Coin × CCoinsViewCache
  | view, _, 0 => (.empty, view)
  | view, n, remaining + 1 =>
    let (alternate, view) := view.accessCoin ⟨txid, UInt32.ofNat n⟩
    if !alternate.isSpent then (alternate, view) else accessFrom txid view (n + 1) remaining

/-- `AccessByTxid`: the first unspent output of a transaction. -/
def accessByTxid (view : CCoinsViewCache) (txid : Uint256) : Coin × CCoinsViewCache :=
  accessFrom txid view 0 maxOutputsPerBlock

end Tidecoin
