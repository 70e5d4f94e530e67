import Tidecoin.Coins.BatchWrite

/-!
Stacked coin caches. A stack is a base view with caches on top of it, the top one first; a read of
the top reads through every cache that has no entry and leaves one there. The stack behaves as a
stack of plain maps: pushing a cache copies the top map, popping forgets it, and a flush copies it
to the map below.
-/

namespace Tidecoin

open Lib Option

/-- The view at the bottom of a stack. The plain `CCoinsView` refuses every bulk modification;
another view carries it out. The coins it returns hold some memory. -/
structure CoinsBase where
  view : CCoinsView
  writable : Bool
  allocated : COutPoint → Nat

/-- The coins of a view after a write of one outpoint; a null coin erases. -/
def CCoinsView.write (view : CCoinsView) (outpoint : COutPoint) (coin : Coin) : CCoinsView where
  getCoin := Function.update view.getCoin outpoint (if coin.isSpent then none else some coin)
  getBestBlock := view.getBestBlock
  getCoinUnspent := by
    intro other found hfound
    by_cases heq : other = outpoint
    · subst heq
      rw [Function.update_self] at hfound
      split at hfound
      · cases hfound
      · cases hfound
        simpa using ‹¬coin.isSpent = true›
    · rw [Function.update_of_ne heq] at hfound
      exact view.getCoinUnspent other found hfound

/-- What the base does with one entry of a bulk modification: dirty ones are written. -/
def CoinsBase.batchWriteEntry (base : CoinsBase) (outpoint : COutPoint) (entry : CCoinsCacheEntry)
    (_allocated : Nat) (_willErase : Bool) : Except StackFailure CoinsBase :=
  .ok (if entry.dirty then { base with view := base.view.write outpoint entry.coin } else base)

/-- Caches over a base, the top one first. -/
structure CoinsStack where
  base : CoinsBase
  levels : List CoinsLevel

namespace CoinsStack

/-- `GetCoin` of the view that the levels make over the base, with the memory of the coin it
returns. Every level without entry asks the next one and keeps what it gets. -/
def read (base : CoinsBase) (outpoint : COutPoint) :
    List CoinsLevel → Option (Coin × Nat) × List CoinsLevel
  | [] => ((base.view.getCoin outpoint).map fun coin => (coin, base.allocated outpoint), [])
  | level :: lower =>
    match level.cacheCoins.lookup outpoint with
    | some entry =>
      (if entry.coin.isSpent then none
       else some (entry.coin, copiedAllocation entry.coin.out.scriptPubKey), level :: lower)
    | none =>
      match read base outpoint lower with
      | (none, lower) => (none, level :: lower)
      | (some (coin, allocated), lower) =>
        (if coin.isSpent then none else some (coin, copiedAllocation coin.out.scriptPubKey),
          level.fetched outpoint coin allocated :: lower)

/-- `FetchCoin` of a cache: its entry, the cache and those below. -/
def fetchCoin (base : CoinsBase) (level : CoinsLevel) (lower : List CoinsLevel)
    (outpoint : COutPoint) : Option CCoinsCacheEntry × CoinsLevel × List CoinsLevel :=
  match level.cacheCoins.lookup outpoint with
  | some entry => (some entry, level, lower)
  | none =>
    match read base outpoint lower with
    | (none, lower) => (none, level, lower)
    | (some (coin, allocated), lower) =>
      let level := level.fetched outpoint coin allocated
      (level.cacheCoins.lookup outpoint, level, lower)

/-- `BatchWrite` of the view below a cache, and whether it succeeded. -/
def batchWrite (base : CoinsBase) (lower : List CoinsLevel) (level : CoinsLevel)
    (willErase : Bool) :
    Except StackFailure (Bool × CoinsBase × List CoinsLevel × CoinsLevel) :=
  match lower with
  | [] =>
    if base.writable then do
      let (base, level') ← level.batchWrite CoinsBase.batchWriteEntry willErase base
      .ok (true, { base with view := { base.view with getBestBlock := level.hashBlock } },
        [], level')
    else .ok (false, base, [], level)
  | parent :: lower => do
      let (parent, level') ← level.batchWrite CoinsLevel.batchWriteEntry willErase parent
      .ok (true, base, { parent with hashBlock := level.hashBlock } :: lower, level')

variable (base : CoinsBase) (level : CoinsLevel) (lower : List CoinsLevel)

/-- `Flush` of the top cache. -/
def flush :
    Except StackFailure CoinsStack := do
  let (fOk, base, lower, level) ← batchWrite base lower level true
  .ok ⟨base, (if fOk then { level.clear with cachedCoinsUsage := 0 } else level) :: lower⟩

/-- `Sync` of the top cache. -/
def sync :
    Except StackFailure CoinsStack := do
  let (fOk, base, lower, level) ← batchWrite base lower level false
  if fOk && (level.flagged.next none).isSome then .error .flagsNotCleared
  else .ok ⟨base, level :: lower⟩

end CoinsStack

namespace CoinsStack

/-- What can be seen through the levels over the base. -/
def view (base : CoinsBase) : List CoinsLevel → CCoinsView
  | [] => base.view
  | level :: lower => (level.onto (view base lower)).asView

/-- Every level has right books and flags over those below. -/
def Sound (base : CoinsBase) : List CoinsLevel → Prop
  | [] => True
  | level :: lower => level.Good (view base lower) ∧ Sound base lower

/-- The coins visible at every level, the top first. -/
def maps (base : CoinsBase) : List CoinsLevel → List (Store COutPoint Coin)
  | [] => []
  | level :: lower => (view base (level :: lower)).getCoin :: maps base lower

end CoinsStack

/-- The operations on a stack whose top cache alone is used. -/
inductive CoinsOp where
  | addCoin (outpoint : COutPoint) (coin : Coin) (allocated : Nat) (possibleOverwrite : Bool)
  | spendCoin (outpoint : COutPoint)
  | getCoin (outpoint : COutPoint)
  | accessCoin (outpoint : COutPoint)
  | haveCoin (outpoint : COutPoint)
  | uncache (outpoint : COutPoint)
  | setBestBlock (hashBlock : Uint256)
  | sync
  | flush
  | push
  | pop
deriving DecidableEq, Repr

namespace CoinsStack

section

variable (stack : CoinsStack) (outpoint : COutPoint)

/-- `GetCoin` of the top cache. -/
def getCoin : Option Coin × CoinsStack :=
  let (found, levels) := read stack.base outpoint stack.levels
  (found.map Prod.fst, { stack with levels := levels })

/-- The entry `FetchCoin` of the top cache returns. -/
def fetchTop : Option CCoinsCacheEntry × CoinsStack :=
  match stack.levels with
  | [] => (none, stack)
  | level :: lower =>
    let (entry, level, lower) := fetchCoin stack.base level lower outpoint
    (entry, { stack with levels := level :: lower })

/-- `AccessCoin` of the top cache. -/
def accessCoin : Coin × CoinsStack :=
  let (entry, stack) := stack.fetchTop outpoint
  ((entry.map CCoinsCacheEntry.coin).getD Coin.empty, stack)

/-- `HaveCoin` of the top cache. -/
def haveCoin : Bool × CoinsStack :=
  let (entry, stack) := stack.fetchTop outpoint
  (entry.any fun entry => !entry.coin.isSpent, stack)

/-- `SpendCoin` of the top cache, with the moved-out coin if there was an entry. -/
def spendCoin : Option Coin × CoinsStack :=
  match stack.fetchTop outpoint with
  | (some entry, ⟨base, level :: lower⟩) =>
    (some entry.coin, ⟨base, level.spend outpoint entry :: lower⟩)
  | (_, stack) => (none, stack)

end

/-- One operation. All but `push` need a cache. -/
def step (stack : CoinsStack) (op : CoinsOp) : Except StackFailure CoinsStack :=
  match op, stack.levels with
  | .push, levels => .ok { stack with levels := .empty :: levels }
  | _, [] => .error .noCache
  | .addCoin outpoint coin allocated possibleOverwrite, level :: lower => do
      let level ← level.addCoin outpoint coin allocated possibleOverwrite
      .ok { stack with levels := level :: lower }
  | .spendCoin outpoint, _ => .ok (stack.spendCoin outpoint).2
  | .getCoin outpoint, _ => .ok (stack.getCoin outpoint).2
  | .accessCoin outpoint, _ => .ok (stack.accessCoin outpoint).2
  | .haveCoin outpoint, _ => .ok (stack.haveCoin outpoint).2
  | .uncache outpoint, level :: lower =>
    .ok { stack with levels := level.uncache outpoint :: lower }
  | .setBestBlock hashBlock, level :: lower =>
    .ok { stack with levels := { level with hashBlock := hashBlock } :: lower }
  | .sync, level :: lower => CoinsStack.sync stack.base level lower
  | .flush, level :: lower => CoinsStack.flush stack.base level lower
  | .pop, _ :: lower => .ok { stack with levels := lower }

def run (stack : CoinsStack) (ops : List CoinsOp) : Except StackFailure CoinsStack :=
  ops.foldlM step stack

/-- Flushing and giving up the top cache, as often as there are caches. -/
def flushOps : Nat → List CoinsOp
  | 0 => []
  | count + 1 => .flush :: .pop :: flushOps count

/-- Flushes everything down to the base. -/
def flushAll (stack : CoinsStack) : Except StackFailure CoinsStack :=
  stack.run (flushOps stack.levels.length)

/-- Every assertion of `SanityCheck` of every cache. -/
def sanityCheck (stack : CoinsStack) : Bool := stack.levels.all CoinsLevel.sanityCheck

end CoinsStack

/-- A stack of plain maps, the top first, over that of the base. -/
structure MapStack where
  base : Store COutPoint Coin
  writable : Bool
  caches : List (Store COutPoint Coin)

namespace MapStack

section

variable (spec : MapStack)

/-- The map on top. -/
def top : Store COutPoint Coin := spec.caches.head?.getD spec.base

/-- Copies the top map over the one below it. The base may refuse. -/
def copyDown : MapStack :=
  match spec.caches with
  | [] => spec
  | [top] => if spec.writable then { spec with base := top } else spec
  | top :: _ :: lower => { spec with caches := top :: top :: lower }

def setTop (coins : Store COutPoint Coin) : MapStack :=
  { spec with caches := coins :: spec.caches.tail }

lemma setTop_top (hcache : spec.caches ≠ []) : spec.setTop spec.top = spec := by
  obtain ⟨base, writable, caches⟩ := spec
  cases caches with
  | nil => exact absurd rfl hcache
  | cons top lower => rfl

lemma copyDown_length : spec.copyDown.caches.length = spec.caches.length := by
  obtain ⟨base, writable, caches⟩ := spec
  rcases caches with - | ⟨top, - | ⟨next, lower⟩⟩
  · rfl
  · cases writable <;> rfl
  · rfl

lemma copyDown_tail (hcache : spec.caches ≠ []) (hwritable : spec.writable) :
    spec.copyDown.writable ∧
      ({ spec.copyDown with caches := spec.copyDown.caches.tail } : MapStack).top = spec.top := by
  obtain ⟨base, writable, caches⟩ := spec
  rcases caches with - | ⟨top, - | ⟨next, lower⟩⟩
  · exact absurd rfl hcache
  · cases hwritable
    exact ⟨rfl, rfl⟩
  · exact ⟨hwritable, rfl⟩

/-- What an operation does to the maps. A null coin cannot be added, an unspendable one is not
stored. -/
def step : CoinsOp → Option MapStack
  | .addCoin outpoint coin _ _ =>
    if coin.isSpent then none
    else if Script.isUnspendable coin.out.scriptPubKey then some spec
    else some (spec.setTop (spec.top.insert outpoint coin))
  | .spendCoin outpoint => some (spec.setTop (spec.top.erase outpoint))
  | .sync | .flush => some spec.copyDown
  | .push => some { spec with caches := spec.top :: spec.caches }
  | .pop => some { spec with caches := spec.caches.tail }
  | .getCoin _ | .accessCoin _ | .haveCoin _ | .uncache _ | .setBestBlock _ => some spec

end

lemma writable_step {spec spec' : MapStack} {op : CoinsOp} (hstep : spec.step op = some spec') :
    spec'.writable = spec.writable := by
  have hcopy : spec.copyDown.writable = spec.writable := by
    unfold copyDown
    split
    · rfl
    · split <;> rfl
    · rfl
  cases op with
  | addCoin outpoint coin allocated possibleOverwrite =>
    simp only [step] at hstep
    split at hstep
    · cases hstep
    · split at hstep <;> cases hstep <;> rfl
  | sync | flush =>
    cases hstep
    exact hcopy
  | _ =>
    cases hstep
    rfl

/-- The caller's side: there is a cache to be used, and only an outpoint without unspent coin is
added without allowing an overwrite. -/
def Allowed (spec : MapStack) : CoinsOp → Prop
  | .push => True
  | .addCoin outpoint _ _ possibleOverwrite =>
    spec.caches ≠ [] ∧ (possibleOverwrite = false → spec.top outpoint = none)
  | _ => spec.caches ≠ []

/-- Every operation of a sequence is allowed where it comes. -/
def AllowedRun : MapStack → List CoinsOp → Prop
  | _, [] => True
  | spec, op :: ops => spec.Allowed op ∧ ∀ spec', spec.step op = some spec' → AllowedRun spec' ops

def run (spec : MapStack) (ops : List CoinsOp) : Option MapStack := ops.foldlM step spec

lemma writable_run {spec spec' : MapStack} {ops : List CoinsOp} (hrun : spec.run ops = some spec') :
    spec'.writable = spec.writable := by
  induction ops generalizing spec with
  | nil =>
    cases hrun
    rfl
  | cons op ops ih =>
    obtain ⟨next, hstep, hrest⟩ := bind_eq_some_iff.1 hrun
    rw [ih hrest, writable_step hstep]

end MapStack

lemma CCoinsView.ext {view other : CCoinsView} (hcoins : view.getCoin = other.getCoin)
    (hblock : view.getBestBlock = other.getBestBlock) : view = other := by
  cases view
  simp_all

namespace CoinsStack

variable {base : CoinsBase} {outpoint : COutPoint}

/-- Levels that show the same coins everywhere, with right books and flags. -/
structure Unchanged (base : CoinsBase) (levels levels' : List CoinsLevel) : Prop where
  sound : Sound base levels'
  viewEq : view base levels' = view base levels
  mapsEq : maps base levels' = maps base levels

variable {levels : List CoinsLevel}

lemma Unchanged.refl (hlevels : Sound base levels) : Unchanged base levels levels :=
  ⟨hlevels, rfl, rfl⟩

variable {lower lower' : List CoinsLevel} {level level' : CoinsLevel}

lemma Unchanged.cons (hlower : Unchanged base lower lower') (hgood : level'.Good (view base lower))
    (hcoins : (level'.onto (view base lower)).coins = (level.onto (view base lower)).coins)
    (hhash : level'.hashBlock = level.hashBlock) :
    Unchanged base (level :: lower) (level' :: lower') := by
  have hview : view base (level' :: lower') = view base (level :: lower) := by
    simp only [view, hlower.viewEq]
    apply CCoinsView.ext
    · exact hcoins
    · simp [CCoinsViewCache.asView, CCoinsViewCache.getBestBlock_fst, CoinsLevel.onto, hhash]
  refine ⟨⟨hlower.viewEq ▸ hgood, hlower.sound⟩, hview, ?_⟩
  rw [maps, maps, hview, hlower.mapsEq]

lemma hashBlock_fetched (hentry : level.cacheCoins.lookup outpoint = none) (coin : Coin)
    (allocated : Nat) :
    (level.fetched outpoint coin allocated).hashBlock = level.hashBlock := by
  rw [CoinsLevel.fetched_eq hentry]
  rfl

lemma Unchanged.fetched (hlower : Unchanged base lower lower')
    (hgood : level.Good (view base lower))
    (hentry : level.cacheCoins.lookup outpoint = none) {coin : Coin}
    (hcoin : (view base lower).getCoin outpoint = some coin) (allocated : Nat) :
    Unchanged base (level :: lower) (level.fetched outpoint coin allocated :: lower') := by
  obtain ⟨hfetched, honto⟩ := hgood.fetched hentry hcoin allocated
  obtain ⟨-, -, hcoins, -⟩ := (level.onto (view base lower)).fetchCoin_spec outpoint
  exact hlower.cons hfetched (honto ▸ hcoins) (hashBlock_fetched hentry ..)

/-- What an entry shows: its coin unless that is spent. -/
def shown (entry : Option CCoinsCacheEntry) : Option Coin :=
  (entry.map CCoinsCacheEntry.coin).filter fun coin => !coin.isSpent

lemma coins_eq_shown {view : CCoinsView} {entry : Option CCoinsCacheEntry}
    (hentry : level.cacheCoins.lookup outpoint = entry)
    (hnone : entry = none → view.getCoin outpoint = none) :
    (level.onto view).coins outpoint = shown entry := by
  subst hentry
  cases hlookup : level.cacheCoins.lookup outpoint with
  | none => exact (CCoinsViewCache.coins_of_lookup_none hlookup).trans (hnone hlookup)
  | some entry =>
    rw [CCoinsViewCache.coins_of_lookup hlookup, shown, map_some, filter_some]
    cases entry.coin.isSpent <;> rfl

/-- A read leaves what can be seen, and returns it. -/
def ReadSpec (base : CoinsBase) (levels : List CoinsLevel) (outpoint : COutPoint) : Prop :=
  (read base outpoint levels).1.map Prod.fst = (view base levels).getCoin outpoint ∧
    Unchanged base levels (read base outpoint levels).2

lemma fetchCoin_of_read (hgood : level.Good (view base lower)) (hlower : Sound base lower)
    (hspec : ReadSpec base lower outpoint) :
    ∃ entry level' lower', fetchCoin base level lower outpoint = (entry, level', lower') ∧
      level'.cacheCoins.lookup outpoint = entry ∧
      Unchanged base (level :: lower) (level' :: lower') ∧
      (view base (level :: lower)).getCoin outpoint = shown entry := by
  cases hentry : level.cacheCoins.lookup outpoint with
  | some entry =>
    refine ⟨some entry, level, lower, ?_, hentry, .refl ⟨hgood, hlower⟩,
      coins_eq_shown hentry (by simp)⟩
    simp [fetchCoin, hentry]
  | none =>
    obtain ⟨hfound, hunchanged⟩ := hspec
    rcases hread : read base outpoint lower with ⟨found, lower'⟩
    rw [hread] at hfound hunchanged
    cases found with
    | none =>
      refine ⟨none, level, lower', ?_, hentry, hunchanged.cons hgood rfl rfl,
        coins_eq_shown hentry fun _ => hfound.symm⟩
      simp [fetchCoin, hentry, hread]
    | some item =>
      obtain ⟨coin, allocated⟩ := item
      have hcoin : (view base lower).getCoin outpoint = some coin := hfound.symm
      have hunchanged' := hunchanged.fetched hgood hentry hcoin allocated
      have hlookup : (level.fetched outpoint coin allocated).cacheCoins.lookup outpoint =
          some ⟨coin, false, coin.isSpent⟩ := by
        rw [CoinsLevel.fetched_eq hentry, CoinsLevel.lookup_place]
      refine ⟨_, level.fetched outpoint coin allocated, lower', ?_, hlookup, hunchanged', ?_⟩
      · simp [fetchCoin, hentry, hread, hlookup]
      · rw [← hunchanged'.viewEq]
        exact coins_eq_shown hlookup (by simp)

lemma read_cons (base : CoinsBase) (level : CoinsLevel) (lower : List CoinsLevel)
    (outpoint : COutPoint) :
    (read base outpoint (level :: lower)).1.map Prod.fst =
        shown (fetchCoin base level lower outpoint).1 ∧
      (read base outpoint (level :: lower)).2 = (fetchCoin base level lower outpoint).2.1 ::
        (fetchCoin base level lower outpoint).2.2 := by
  cases hentry : level.cacheCoins.lookup outpoint with
  | some entry =>
    cases hspent : entry.coin.isSpent <;> simp [read, fetchCoin, shown, hentry, hspent, filter_some]
  | none =>
    rcases hread : read base outpoint lower with ⟨_ | ⟨coin, allocated⟩, lower'⟩
    · simp [read, fetchCoin, shown, hentry, hread]
    · cases hspent : coin.isSpent <;>
        simp [read, fetchCoin, shown, hentry, hread, hspent, filter_some,
          CoinsLevel.fetched_eq hentry]

lemma read_spec (hlevels : Sound base levels) (outpoint : COutPoint) :
    ReadSpec base levels outpoint := by
  induction levels with
  | nil =>
    refine ⟨?_, .refl hlevels⟩
    simp [read, view, Function.comp_def]
  | cons level lower ih =>
    obtain ⟨entry, level', lower', hfetch, -, hunchanged, hshown⟩ :=
      fetchCoin_of_read hlevels.1 hlevels.2 (ih hlevels.2)
    obtain ⟨hfound, hlevels'⟩ := read_cons base level lower outpoint
    rw [hfetch] at hfound hlevels'
    exact ⟨hfound.trans hshown.symm, hlevels' ▸ hunchanged⟩

/-- The stack has right books and flags, and shows the maps. -/
structure Refines (stack : CoinsStack) (spec : MapStack) : Prop where
  sound : Sound stack.base stack.levels
  baseEq : spec.base = stack.base.view.getCoin
  writableEq : spec.writable = stack.base.writable
  cachesEq : spec.caches = maps stack.base stack.levels

variable {stack : CoinsStack} {spec : MapStack}

lemma Refines.top_eq (hstack : stack.Refines spec) :
    spec.top = (view stack.base stack.levels).getCoin := by
  rw [MapStack.top, hstack.cachesEq]
  cases hlevels : stack.levels with
  | nil => simp [maps, view, hstack.baseEq]
  | cons level lower => simp [maps]

lemma Refines.unchanged (hstack : stack.Refines spec)
    (hlevels : Unchanged stack.base stack.levels levels) :
    Refines { stack with levels := levels } spec :=
  ⟨hlevels.sound, hstack.baseEq, hstack.writableEq, hstack.cachesEq.trans hlevels.mapsEq.symm⟩

lemma receives_base : CoinsLevel.Receives CoinsBase.batchWriteEntry
    fun receiver coins => receiver.view.getCoin = coins ∧ receiver.writable := by
  rintro receiver _ outpoint entry allocated willErase ⟨rfl, hwritable⟩ -
  refine ⟨_, rfl, ?_, ?_⟩
  · cases hdirty : entry.dirty with
    | false => simp [CoinsLevel.written, hdirty]
    | true => simp [CoinsLevel.written, hdirty, CCoinsView.write]
  · cases entry.dirty <;> exact hwritable

/-- After a bulk modification the view behind the top shows the coins of the top, unless it is a
base that refuses. -/
theorem batchWrite_spec (hlevels : Sound base (level :: lower)) (willErase : Bool) :
    (lower = [] ∧ base.writable = false ∧
      batchWrite base lower level willErase = .ok (false, base, lower, level)) ∨
    ∃ base' lower' level', batchWrite base lower level willErase =
      .ok (true, base', lower', level') ∧
      level.Progress willErase [] level' ∧ Sound base' lower' ∧
      (view base' lower').getCoin = (view base (level :: lower)).getCoin ∧
      ∀ spec : MapStack, spec.base = base.view.getCoin → spec.writable = base.writable →
        spec.caches = maps base (level :: lower) →
        spec.copyDown.base = base'.view.getCoin ∧ spec.copyDown.writable = base'.writable ∧
          spec.copyDown.caches = (view base (level :: lower)).getCoin :: maps base' lower' := by
  obtain ⟨hgood, hlower⟩ := hlevels
  cases lower with
  | nil =>
    cases hwritable : base.writable with
    | false => exact .inl ⟨rfl, rfl, by simp [batchWrite, hwritable]⟩
    | true =>
      obtain ⟨base', level', hrun, ⟨hcoins, hwritable'⟩, hprogress⟩ :=
        hgood.batchWrite receives_base willErase ⟨rfl, hwritable⟩
      refine .inr ⟨{ base' with view := { base'.view with getBestBlock := level.hashBlock } }, [],
        level', ?_, hprogress, trivial, hcoins, ?_⟩
      · simp only [batchWrite, hwritable, if_true, hrun]
        rfl
      · intro spec hbase hspec hcaches
        rw [MapStack.copyDown, hcaches]
        simp only [maps, hspec, if_true]
        exact ⟨hcoins.symm, hwritable'.symm, trivial⟩
  | cons parent rest =>
    obtain ⟨parent', level', hrun, ⟨hgood', hcoins⟩, hprogress⟩ :=
      hgood.batchWrite (CoinsLevel.receives_batchWriteEntry _) willErase ⟨hlower.1, rfl⟩
    obtain ⟨hset, hseen⟩ := hgood'.setHash level.hashBlock
    refine .inr ⟨base, { parent' with hashBlock := level.hashBlock } :: rest, level', ?_, hprogress,
      ⟨hset, hlower.2⟩, hseen.trans hcoins, ?_⟩
    · simp only [batchWrite, hrun]
      rfl
    · intro spec hbase hspec hcaches
      rw [MapStack.copyDown, hcaches]
      simp only [maps]
      refine ⟨hbase, hspec, ?_⟩
      rw [show (view base ({ parent' with hashBlock := level.hashBlock } :: rest)).getCoin =
        (view base (level :: parent :: rest)).getCoin from hseen.trans hcoins]

section

variable (hstack : Refines ⟨base, level :: lower⟩ spec)
include hstack

/-- A bulk modification copies the top map down, whatever it leaves of the top cache, unless the
base refuses. -/
lemma Refines.batchWrite (willErase : Bool) :
    (CoinsStack.batchWrite base lower level willErase = .ok (false, base, lower, level) ∧
      Refines ⟨base, level :: lower⟩ spec.copyDown) ∨
    ∃ base' lower' level', CoinsStack.batchWrite base lower level willErase =
        .ok (true, base', lower', level') ∧ level.Progress willErase [] level' ∧
      (view base' lower').getCoin = (view base (level :: lower)).getCoin ∧
      ∀ top : CoinsLevel, top.Good (view base' lower') →
        (top.onto (view base' lower')).coins = (view base (level :: lower)).getCoin →
        Refines ⟨base', top :: lower'⟩ spec.copyDown := by
  rcases batchWrite_spec hstack.sound willErase with ⟨rfl, hwritable, hrun⟩ |
    ⟨base', lower', level', hrun, hprogress, hlower, hview, hspec⟩
  · have hrefused : spec.copyDown = spec := by
      have hspec : spec.writable = false := hstack.writableEq.trans hwritable
      rw [MapStack.copyDown, hstack.cachesEq]
      simp [maps, hspec]
    rw [hrefused]
    exact .inl ⟨hrun, hstack⟩
  · refine .inr ⟨base', lower', level', hrun, hprogress, hview, fun top hgood hcoins => ?_⟩
    obtain ⟨hbase, hwritable, hcaches⟩ :=
      hspec spec hstack.baseEq hstack.writableEq hstack.cachesEq
    refine ⟨⟨hgood, hlower⟩, hbase, hwritable, ?_⟩
    rw [hcaches, maps, ← hcoins]
    rfl

lemma Refines.flush :
    ∃ stack', CoinsStack.flush base level lower = .ok stack' ∧ stack'.Refines spec.copyDown := by
  rcases hstack.batchWrite true with ⟨hrun, hsame⟩ | ⟨base', lower', level', hrun, hprogress,
    hview, hcopy⟩
  · refine ⟨⟨base, level :: lower⟩, ?_, hsame⟩
    simp only [CoinsStack.flush, hrun]
    rfl
  · have heq : level' = level := by simpa [CoinsLevel.Progress] using hprogress
    obtain ⟨hgood, hcoins⟩ := hstack.sound.1.kept.clear (view base' lower')
    refine ⟨_, ?_, hcopy _ hgood (hcoins.trans hview)⟩
    simp only [CoinsStack.flush, hrun, heq]
    rfl

lemma Refines.sync :
    ∃ stack', CoinsStack.sync base level lower = .ok stack' ∧ stack'.Refines spec.copyDown := by
  rcases hstack.batchWrite false with ⟨hrun, hsame⟩ | ⟨base', lower', level', hrun, hprogress,
    hview, hcopy⟩
  · refine ⟨⟨base, level :: lower⟩, ?_, hsame⟩
    simp only [CoinsStack.sync, hrun]
    rfl
  · have hsettled : level.Settling [] level' := by simpa [CoinsLevel.Progress] using hprogress
    obtain ⟨hgood, hcoins, hring⟩ := hsettled.good hstack.sound.1 hview
    refine ⟨_, ?_, hcopy _ hgood hcoins⟩
    simp only [CoinsStack.sync, hrun]
    dsimp only [bind, Except.bind]
    rw [hring]
    rfl

lemma Refines.setTop (hlower : Unchanged base (level :: lower) (level' :: lower'))
    {level'' : CoinsLevel}
    (hlevel : level''.Good (view base lower')) {coins : Store COutPoint Coin}
    (hcoins : (level''.onto (view base lower')).coins = coins) :
    Refines ⟨base, level'' :: lower'⟩ (spec.setTop coins) := by
  refine ⟨⟨hlevel, hlower.sound.2⟩, hstack.baseEq, hstack.writableEq, ?_⟩
  have htail : maps base lower' = maps base lower := by
    have hmaps := hlower.mapsEq
    exact (List.cons.inj hmaps).2
  rw [MapStack.setTop, hstack.cachesEq, maps, List.tail_cons, maps, htail, ← hcoins]
  rfl

lemma Refines.sameTop (hlevel : level'.Good (view base lower))
    (hcoins : (level'.onto (view base lower)).coins = (level.onto (view base lower)).coins) :
    Refines ⟨base, level' :: lower⟩ spec := by
  refine ⟨⟨hlevel, hstack.sound.2⟩, hstack.baseEq, hstack.writableEq, ?_⟩
  rw [hstack.cachesEq, maps, maps]
  exact congrArg (· :: maps base lower) hcoins.symm

end

section

variable (hstack : stack.Refines spec)
include hstack

lemma Refines.push : Refines { stack with levels := .empty :: stack.levels }
      { spec with caches := spec.top :: spec.caches } := by
  refine ⟨⟨CoinsLevel.good_empty _, hstack.sound⟩, hstack.baseEq, hstack.writableEq, ?_⟩
  rw [maps, hstack.top_eq, hstack.cachesEq]
  refine congrArg (· :: maps stack.base stack.levels) (funext fun outpoint => ?_)
  exact (@CCoinsViewCache.coins_of_lookup_none (CoinsLevel.empty.onto
    (view stack.base stack.levels))
    outpoint (AList.lookup_empty outpoint)).symm

lemma Refines.fetchTop (hcache : spec.caches ≠ []) (outpoint : COutPoint) :
    ∃ entry level lower, stack.fetchTop outpoint = (entry, ⟨stack.base, level :: lower⟩) ∧
      level.cacheCoins.lookup outpoint = entry ∧
      Unchanged stack.base stack.levels (level :: lower) ∧ spec.top outpoint = shown entry := by
  obtain ⟨base, levels⟩ := stack
  cases levels with
  | nil => exact absurd hstack.cachesEq hcache
  | cons level lower =>
    obtain ⟨entry, level', lower', hfetch, hlookup, hunchanged, hshown⟩ :=
      fetchCoin_of_read hstack.sound.1 hstack.sound.2 (read_spec hstack.sound.2 outpoint)
    refine ⟨entry, level', lower', ?_, hlookup, hunchanged, ?_⟩
    · simp [CoinsStack.fetchTop, hfetch]
    · rw [hstack.top_eq]
      exact hshown

lemma Refines.spendCoin (hcache : spec.caches ≠ []) (outpoint : COutPoint) :
    (stack.spendCoin outpoint).2.Refines (spec.setTop (spec.top.erase outpoint)) := by
  obtain ⟨entry, level, lower, hfetch, hlookup, hunchanged, hshown⟩ :=
    hstack.fetchTop hcache outpoint
  have htop := hstack.top_eq
  rw [← hunchanged.viewEq] at htop
  have hfetched := hstack.unchanged hunchanged
  cases entry with
  | none =>
    -- Nothing to be seen: the map is as it was.
    have hspec : spec.setTop (spec.top.erase outpoint) = spec := by
      rw [Store.erase, Function.update_eq_self_iff.2 hshown.symm]
      exact spec.setTop_top hcache
    rw [CoinsStack.spendCoin, hfetch, hspec]
    exact hfetched
  | some entry =>
    obtain ⟨hgood, hcoins⟩ := hunchanged.sound.1.spend hlookup
    rw [CoinsStack.spendCoin, hfetch, htop]
    exact hfetched.setTop (.refl hunchanged.sound) hgood hcoins

lemma Refines.step {op : CoinsOp} (hallowed : spec.Allowed op) :
    (spec.step op = none ∧ stack.step op = .error .spentCoin) ∨
      ∃ spec' stack', spec.step op = some spec' ∧ stack.step op = .ok stack' ∧
        stack'.Refines spec' := by
  obtain ⟨base, levels⟩ := stack
  cases levels with
  | nil =>
    cases op with
    | push => exact .inr ⟨_, _, rfl, rfl, hstack.push⟩
    | addCoin => exact absurd hstack.cachesEq hallowed.1
    | _ => exact absurd hstack.cachesEq hallowed
  | cons level lower =>
    have hcache : spec.caches ≠ [] := by
      rw [hstack.cachesEq]
      exact List.cons_ne_nil _ _
    obtain ⟨hgood, hlower⟩ := hstack.sound
    cases op with
    | push => exact .inr ⟨_, _, rfl, rfl, hstack.push⟩
    | addCoin outpoint coin allocated possibleOverwrite =>
      cases hspent : coin.isSpent with
      | true =>
        refine .inl ⟨by simp [MapStack.step, hspent], ?_⟩
        simp only [CoinsStack.step, CoinsLevel.addCoin, hspent, if_true]
        rfl
      | false =>
        cases hspendable : Script.isUnspendable coin.out.scriptPubKey with
        | true =>
          refine .inr ⟨spec, ⟨base, level :: lower⟩, ?_, ?_, hstack⟩
          · simp [MapStack.step, hspent, hspendable]
          · simp only [CoinsStack.step, CoinsLevel.addCoin, hspent, hspendable]
            rfl
        | false =>
          have habsent :
              (level.onto (view base lower)).coins outpoint = none ∨ possibleOverwrite := by
            cases hoverwrite : possibleOverwrite with
            | true => exact .inr rfl
            | false =>
              have hnone := hallowed.2 hoverwrite
              rw [hstack.top_eq] at hnone
              exact .inl hnone
          obtain ⟨level', hadd, hgood', hcoins⟩ := hgood.addCoin hspent hspendable allocated habsent
          refine .inr ⟨spec.setTop (spec.top.insert outpoint coin), ⟨base, level' :: lower⟩,
            ?_, ?_, ?_⟩
          · simp [MapStack.step, hspent, hspendable]
          · simp only [CoinsStack.step, hadd]
            rfl
          · apply hstack.setTop (.refl hstack.sound) hgood'
            rw [hcoins, hstack.top_eq]
            rfl
    | spendCoin outpoint =>
      exact .inr ⟨_, _, rfl, rfl, hstack.spendCoin hcache outpoint⟩
    | getCoin outpoint =>
      refine .inr ⟨_, _, rfl, rfl, ?_⟩
      exact hstack.unchanged (read_spec hstack.sound outpoint).2
    | accessCoin outpoint =>
      obtain ⟨entry, level', lower', hfetch, -, hunchanged, -⟩ := hstack.fetchTop hcache outpoint
      refine .inr ⟨_, _, rfl, rfl, ?_⟩
      rw [CoinsStack.accessCoin, hfetch]
      exact hstack.unchanged hunchanged
    | haveCoin outpoint =>
      obtain ⟨entry, level', lower', hfetch, -, hunchanged, -⟩ := hstack.fetchTop hcache outpoint
      refine .inr ⟨_, _, rfl, rfl, ?_⟩
      rw [CoinsStack.haveCoin, hfetch]
      exact hstack.unchanged hunchanged
    | uncache outpoint =>
      obtain ⟨hgood', hcoins⟩ := hgood.uncache outpoint
      exact .inr ⟨_, _, rfl, rfl, hstack.sameTop hgood' hcoins⟩
    | setBestBlock hashBlock =>
      obtain ⟨hgood', hcoins⟩ := hgood.setHash hashBlock
      exact .inr ⟨_, _, rfl, rfl, hstack.sameTop hgood' hcoins⟩
    | sync =>
      obtain ⟨stack', hrun, hstack'⟩ := hstack.sync
      exact .inr ⟨_, stack', rfl, hrun, hstack'⟩
    | flush =>
      obtain ⟨stack', hrun, hstack'⟩ := hstack.flush
      exact .inr ⟨_, stack', rfl, hrun, hstack'⟩
    | pop =>
      refine .inr ⟨_, _, rfl, rfl, hlower, hstack.baseEq, hstack.writableEq, ?_⟩
      rw [hstack.cachesEq]
      rfl

lemma Refines.run {ops : List CoinsOp} (hallowed : spec.AllowedRun ops) :
    (spec.run ops = none ∧ stack.run ops = .error .spentCoin) ∨
      ∃ spec' stack', spec.run ops = some spec' ∧ stack.run ops = .ok stack' ∧
        stack'.Refines spec' := by
  induction ops generalizing stack spec with
  | nil => exact .inr ⟨spec, stack, rfl, rfl, hstack⟩
  | cons op ops ih =>
    rcases hstack.step hallowed.1 with ⟨hspec, hrun⟩ | ⟨spec', stack', hspec, hrun, hstack'⟩
    · refine .inl ⟨?_, ?_⟩
      · simp [MapStack.run, hspec]
      · simp only [CoinsStack.run, List.foldlM, hrun]
        rfl
    · have hspecrun : spec.run (op :: ops) = spec'.run ops := by
        simp [MapStack.run, hspec]
      have hstackrun : stack.run (op :: ops) = stack'.run ops := by
        simp only [CoinsStack.run, List.foldlM, hrun]
        rfl
      rw [hspecrun, hstackrun]
      exact ih hstack' (hallowed.2 spec' hspec)

end

lemma maps_length (base : CoinsBase) (levels : List CoinsLevel) :
    (maps base levels).length = levels.length := by
  induction levels with
  | nil => rfl
  | cons level lower ih => simp [maps, ih]

lemma Refines.flushAll (hstack : stack.Refines spec) (hwritable : stack.base.writable) :
    ∃ base, stack.flushAll = .ok ⟨base, []⟩ ∧ base.view.getCoin = spec.top := by
  have hcount : ∀ (count : Nat) (stack : CoinsStack) (spec : MapStack), stack.Refines spec →
      spec.writable → stack.levels.length = count →
      ∃ base, stack.run (flushOps count) = .ok ⟨base, []⟩ ∧ base.view.getCoin = spec.top := by
    intro count
    induction count with
    | zero =>
      intro stack spec hstack _ hlength
      obtain ⟨base, levels⟩ := stack
      cases List.length_eq_zero_iff.1 hlength
      exact ⟨base, rfl, hstack.top_eq.symm⟩
    | succ count ih =>
      intro stack spec hstack hwritable hlength
      obtain ⟨base, levels⟩ := stack
      obtain ⟨level, lower, rfl⟩ := List.exists_cons_of_length_eq_add_one hlength
      obtain ⟨⟨base', levels'⟩, hflush, hflushed⟩ := hstack.flush
      have hcaches := hstack.cachesEq
      have hlength' : levels'.length = count + 1 := by
        rw [← maps_length base', ← hflushed.cachesEq, MapStack.copyDown_length, hcaches,
          maps_length, hlength]
      obtain ⟨level', lower', rfl⟩ := List.exists_cons_of_length_eq_add_one hlength'
      have hpopped :
          Refines ⟨base', lower'⟩ { spec.copyDown with caches := spec.copyDown.caches.tail } :=
        ⟨hflushed.sound.2, hflushed.baseEq, hflushed.writableEq, by rw [hflushed.cachesEq]; rfl⟩
      have hcache : spec.caches ≠ [] := by
        rw [hcaches]
        exact List.cons_ne_nil _ _
      obtain ⟨hwritable', htop⟩ := spec.copyDown_tail hcache hwritable
      obtain ⟨last, hrun, hlast⟩ :=
        ih ⟨base', lower'⟩ _ hpopped hwritable' (by simpa using hlength')
      refine ⟨last, ?_, hlast.trans htop⟩
      simp only [flushOps, CoinsStack.run, List.foldlM, CoinsStack.step, hflush]
      exact hrun
  exact hcount _ stack spec hstack (hstack.writableEq.trans hwritable) rfl

/-- What the reading operations of the top cache return. -/
structure Shows (stack : CoinsStack) (coins : Store COutPoint Coin) : Prop where
  getCoin : ∀ outpoint, (stack.getCoin outpoint).1 = coins outpoint
  accessCoin : ∀ outpoint, (stack.accessCoin outpoint).1 = (coins outpoint).getD Coin.empty
  haveCoin : ∀ outpoint, (stack.haveCoin outpoint).1 = (coins outpoint).isSome
  spendCoin : ∀ outpoint, (stack.spendCoin outpoint).1.filter (fun coin => !coin.isSpent) =
    coins outpoint

lemma Refines.shows (hstack : stack.Refines spec) (hcache : spec.caches ≠ []) :
    stack.Shows spec.top := by
  constructor
  · intro outpoint
    rw [hstack.top_eq]
    exact (read_spec hstack.sound outpoint).1
  all_goals
    intro outpoint
    obtain ⟨entry, level, lower, hfetch, hlookup, hunchanged, htop⟩ :=
      hstack.fetchTop hcache outpoint
    rw [htop, shown]
  · rw [CoinsStack.accessCoin, hfetch]
    cases entry with
    | none => rfl
    | some entry =>
      -- A spent entry holds the null coin.
      have hempty := hunchanged.sound.1.faithful.spentEmpty outpoint entry hlookup
      cases hspent : entry.coin.isSpent with
      | true => simp [filter_some, hempty hspent]
      | false => simp [filter_some, hspent]
  · rw [CoinsStack.haveCoin, hfetch]
    cases entry with
    | none => rfl
    | some entry => cases hspent : entry.coin.isSpent <;> simp [hspent]
  · rw [CoinsStack.spendCoin, hfetch]
    cases entry <;> rfl

end CoinsStack

namespace CoinsStack

lemma Refines.sanityCheck {stack : CoinsStack} {spec : MapStack} (hstack : stack.Refines spec) :
    stack.sanityCheck := by
  have hlevels : ∀ levels, Sound stack.base levels → levels.all CoinsLevel.sanityCheck := by
    intro levels
    induction levels with
    | nil => exact fun _ => rfl
    | cons level lower ih =>
      intro hsound
      rw [List.all_cons, hsound.1.sanityCheck, ih hsound.2, Bool.and_self]
  exact hlevels stack.levels hstack.sound

end CoinsStack

/-- The maps over a base before there is a cache. -/
def MapStack.ofBase (base : CoinsBase) : MapStack := ⟨base.view.getCoin, base.writable, []⟩

/-- In every run the caches show the maps: what the top cache returns is what its map holds, every
assertion of `SanityCheck` holds at every level, and flushing everything leaves the top map in the
base. Nothing is thrown; the run ends early only at the assertion against adding a null coin. -/
theorem coinsStack_refines (base : CoinsBase) (ops : List CoinsOp)
    (hallowed : (MapStack.ofBase base).AllowedRun ops) :
    ((MapStack.ofBase base).run ops = none ∧ CoinsStack.run ⟨base, []⟩ ops = .error .spentCoin) ∨
    ∃ spec stack, (MapStack.ofBase base).run ops = some spec ∧
      CoinsStack.run ⟨base, []⟩ ops = .ok stack ∧ (spec.caches ≠ [] → stack.Shows spec.top) ∧
      stack.sanityCheck = true ∧ (base.writable = true →
        ∃ flushed, stack.flushAll = .ok ⟨flushed, []⟩ ∧ flushed.view.getCoin = spec.top) := by
  have hstart : CoinsStack.Refines ⟨base, []⟩ (.ofBase base) := ⟨trivial, rfl, rfl, rfl⟩
  rcases hstart.run hallowed with hspent | ⟨spec, stack, hspec, hrun, hstack⟩
  · exact .inl hspent
  · have hwritable : stack.base.writable = base.writable :=
      hstack.writableEq.symm.trans (MapStack.writable_run hspec)
    exact .inr ⟨spec, stack, hspec, hrun, hstack.shows, hstack.sanityCheck,
      fun hbase => hstack.flushAll (hwritable.trans hbase)⟩

/-- A base without coins. -/
def emptyBase : CoinsBase := ⟨⟨fun _ => none, 0, by simp⟩, true, fun _ => 0⟩

/-- A coin is added to a first cache and spent through a second one, which is then flushed. -/
def spendRun : List CoinsOp :=
  [.push, .addCoin ⟨1, 0⟩ ⟨⟨5, [0x51]⟩, false, 7⟩ 0 false, .push, .spendCoin ⟨1, 0⟩, .flush]

lemma spendRun_allowed : (MapStack.ofBase emptyBase).AllowedRun spendRun := by
  refine ⟨trivial, ?_⟩
  rintro _ ⟨⟩
  refine ⟨⟨List.cons_ne_nil _ _, fun _ => rfl⟩, ?_⟩
  rintro _ ⟨⟩
  refine ⟨trivial, ?_⟩
  rintro _ ⟨⟩
  refine ⟨List.cons_ne_nil _ _, ?_⟩
  rintro _ ⟨⟩
  refine ⟨List.cons_ne_nil _ _, ?_⟩
  rintro _ ⟨⟩
  trivial

theorem coinsStack_refines_spendRun :
    ∃ stack flushed, CoinsStack.run ⟨emptyBase, []⟩ spendRun = .ok stack ∧
      stack.sanityCheck = true ∧ (stack.getCoin ⟨1, 0⟩).1 = none ∧
      stack.flushAll = .ok ⟨flushed, []⟩ ∧ flushed.view.getCoin ⟨1, 0⟩ = none := by
  rcases coinsStack_refines emptyBase spendRun spendRun_allowed with
    ⟨hspec, -⟩ | ⟨spec, stack, hspec, hrun, hshows, hsane, hflush⟩
  · cases hspec
  · obtain ⟨flushed, hflushed, hbase⟩ := hflush rfl
    cases hspec
    exact ⟨stack, flushed, hrun, hsane, (hshows (List.cons_ne_nil _ _)).getCoin ⟨1, 0⟩, hflushed,
      congrFun hbase ⟨1, 0⟩⟩

end Tidecoin
