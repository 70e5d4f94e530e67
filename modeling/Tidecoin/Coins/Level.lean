import Tidecoin.Coins
import Tidecoin.Lib.LinkedRing

/-!
One coin cache with everything flushing rests on: the ring of flagged entries through the sentinel
and the counter of the memory the cached coins hold. `Tidecoin.Coins` looks at a cache without
these; here it is the projection `onto` of a level, with the view behind it. The operations keep the
books, and the flags mean what they say over this view.
-/

namespace Tidecoin

open Lib AList CCoinsCacheEntry Option List Function

/-- `memusage::MallocUsage` where pointers have eight bytes. -/
def mallocUsage (alloc : BitVec 64) : BitVec 64 :=
  if alloc = 0 then 0 else ((alloc + 31) >>> 4) <<< 4

/-- The bytes a script keeps inside the object. -/
def scriptStaticSize : Nat := 36

/-- `allocated_memory` of a copied script. -/
def copiedAllocation (script : Bytes) : Nat :=
  if script.length ≤ scriptStaticSize then 0 else script.length

/-- `allocated_memory` after a copy was assigned to a script, whose memory is kept if it
suffices. -/
def assignedAllocation (allocated : Nat) (script : Bytes) : Nat :=
  if (if allocated = 0 then scriptStaticSize else allocated) < script.length then script.length
  else allocated

/-- How an operation on a stack can end: an assertion or `logic_error` of the caches. The last two
are no behaviour of the source as such: a pointer to an entry that is gone, and a ring that never
comes back to its sentinel. -/
inductive StackFailure where
  | spentCoin
  | overwrite
  | freshMisapplied
  | flagsNotCleared
  | noCache
  | danglingPointer
  | endlessRing
deriving DecidableEq, Repr

/-- `CCoinsViewCache` without its base. The pointers of the entries are kept in the ring, and
`allocated_memory` of the script of each entry's coin in a table. -/
structure CoinsLevel where
  hashBlock : Uint256
  cacheCoins : CCoinsMap
  flagged : LinkedRing COutPoint
  allocated : COutPoint → Nat
  cachedCoinsUsage : BitVec 64

/-- `IsDirty() || IsFresh()`. -/
def CCoinsCacheEntry.isFlagged (entry : CCoinsCacheEntry) : Bool := entry.dirty || entry.fresh

namespace CoinsLevel

/-- A new cache. -/
def empty : CoinsLevel := ⟨0, ∅, LinkedRing.empty, fun _ => 0, 0⟩

section

variable (level : CoinsLevel) (outpoint : COutPoint)

/-- `DynamicMemoryUsage` of the coin of an entry. -/
def usage : BitVec 64 := mallocUsage (BitVec.ofNat 64 (level.allocated outpoint))

/-- Inserts an empty entry if there is none. -/
def emplace : CoinsLevel :=
  if (level.cacheCoins.lookup outpoint).isSome then level
  else
    { level with
      cacheCoins := level.cacheCoins.insert outpoint .empty
      allocated := Function.update level.allocated outpoint 0 }

/-- Assigns the coin of an entry. -/
def setCoin (coin : Coin) (allocated : Nat) : CoinsLevel :=
  match level.cacheCoins.lookup outpoint with
  | none => level
  | some entry =>
    { level with
      cacheCoins := level.cacheCoins.insert outpoint { entry with coin := coin }
      allocated := Function.update level.allocated outpoint allocated }

def addUsage : CoinsLevel :=
  { level with cachedCoinsUsage := level.cachedCoinsUsage + level.usage outpoint }

def subUsage : CoinsLevel :=
  { level with cachedCoinsUsage := level.cachedCoinsUsage - level.usage outpoint }

/-- `AddFlags`: an entry gets into the ring with its first flag. -/
def addFlags (dirty fresh : Bool) : CoinsLevel :=
  match level.cacheCoins.lookup outpoint with
  | none => level
  | some entry =>
    { level with
      cacheCoins := level.cacheCoins.insert outpoint
        { entry with dirty := entry.dirty || dirty, fresh := entry.fresh || fresh }
      flagged :=
        if entry.isFlagged then level.flagged else level.flagged.pushBack outpoint }

def setDirty : CoinsLevel := level.addFlags outpoint true false

def setFresh : CoinsLevel := level.addFlags outpoint false true

def setClean : CoinsLevel :=
  match level.cacheCoins.lookup outpoint with
  | none => level
  | some entry =>
    if entry.isFlagged then
      { level with
        cacheCoins := level.cacheCoins.insert outpoint { entry with dirty := false, fresh := false }
        flagged := level.flagged.unlink outpoint }
    else level

end

/-- Removes an entry from the map. Its destructor cleans it first. -/
def erase (level : CoinsLevel) (outpoint : COutPoint) : CoinsLevel :=
  let level := level.setClean outpoint
  { level with cacheCoins := level.cacheCoins.erase outpoint }

section

variable (level : CoinsLevel)

/-- `clear` of the map, with the destructors of all its entries. -/
def clear : CoinsLevel := level.cacheCoins.keys.foldl erase level

/-- What `FetchCoin` does with a coin found in the base. -/
def fetched (outpoint : COutPoint) (coin : Coin) (allocated : Nat) : CoinsLevel :=
  let level := level.emplace outpoint
  let level := level.setCoin outpoint coin allocated
  let level := level.addUsage outpoint
  if coin.isSpent then level.setFresh outpoint else level

/-- `AddCoin`; the coin is moved in with the memory it holds. -/
def addCoin (outpoint : COutPoint) (coin : Coin) (allocated : Nat) (possibleOverwrite : Bool) :
    Except StackFailure CoinsLevel :=
  if coin.isSpent then .error .spentCoin
  else if Script.isUnspendable coin.out.scriptPubKey then .ok level
  else
    let inserted := (level.cacheCoins.lookup outpoint).isNone
    let level := level.emplace outpoint
    let entry := (level.cacheCoins.lookup outpoint).getD .empty
    if !possibleOverwrite && !entry.coin.isSpent then .error .overwrite
    else
      let fresh := !possibleOverwrite && !entry.dirty
      let level := if inserted then level else level.subUsage outpoint
      let level := level.setCoin outpoint coin allocated
      let level := level.setDirty outpoint
      let level := if fresh then level.setFresh outpoint else level
      .ok (level.addUsage outpoint)

/-- What `SpendCoin` does with an entry. -/
def spend (outpoint : COutPoint) (entry : CCoinsCacheEntry) : CoinsLevel :=
  let level := level.subUsage outpoint
  if entry.fresh then level.erase outpoint
  else (level.setDirty outpoint).setCoin outpoint .empty 0

def uncache (outpoint : COutPoint) : CoinsLevel :=
  match level.cacheCoins.lookup outpoint with
  | none => level
  | some entry =>
    if !entry.dirty && !entry.fresh then (level.subUsage outpoint).erase outpoint else level

/-- The body of `BatchWrite` for one entry of the cache above. A coin that will be erased there
anyway is moved with its memory, another one is copied. -/
def batchWriteEntry (outpoint : COutPoint) (entry : CCoinsCacheEntry) (allocated : Nat)
    (willErase : Bool) : Except StackFailure CoinsLevel :=
  let assign (level : CoinsLevel) : CoinsLevel :=
    level.setCoin outpoint entry.coin
      (if willErase then allocated
       else assignedAllocation (level.allocated outpoint) entry.coin.out.scriptPubKey)
  if !entry.dirty then .ok level
  else
    match level.cacheCoins.lookup outpoint with
    | none =>
      if entry.fresh && entry.coin.isSpent then .ok level
      else
        let level := assign (level.emplace outpoint)
        let level := level.addUsage outpoint
        let level := level.setDirty outpoint
        .ok (if entry.fresh then level.setFresh outpoint else level)
    | some itUs =>
      if entry.fresh && !itUs.coin.isSpent then .error .freshMisapplied
      else if itUs.fresh && entry.coin.isSpent then
        .ok ((level.subUsage outpoint).erase outpoint)
      else
        let level := level.subUsage outpoint
        let level := assign level
        let level := level.addUsage outpoint
        .ok (level.setDirty outpoint)

/-- `NextAndMaybeErase` of the cursor, after the next entry was read. -/
def maybeErase (willErase : Bool) (outpoint : COutPoint) (entry : CCoinsCacheEntry) : CoinsLevel :=
  if willErase then level
  else if entry.coin.isSpent then (level.subUsage outpoint).erase outpoint
  else level.setClean outpoint

end

/-- The loop of a `BatchWrite` over the cursor of the cache above. `write` is what the receiver does
with one entry. A move leaves a coin behind only in an entry that is wiped afterwards, or a null
coin as it was. -/
def batchLoop {σ : Type}
    (write : σ → COutPoint → CCoinsCacheEntry → Nat → Bool → Except StackFailure σ)
    (willErase : Bool) :
    (fuel : Nat) → Option COutPoint → σ → CoinsLevel → Except StackFailure (σ × CoinsLevel)
  | _, none, receiver, level => .ok (receiver, level)
  | 0, some _, _, _ => .error .endlessRing
  | fuel + 1, some current, receiver, level =>
    match level.cacheCoins.lookup current with
    | none => .error .danglingPointer
    | some entry => do
        let receiver ← write receiver current entry (level.allocated current)
          (willErase || entry.coin.isSpent)
        let next := level.flagged.next (some current)
        batchLoop write willErase fuel next receiver (level.maybeErase willErase current entry)

/-- The loop from the begin of the cursor on. -/
def batchWrite {σ : Type}
    (write : σ → COutPoint → CCoinsCacheEntry → Nat → Bool → Except StackFailure σ)
    (willErase : Bool) (receiver : σ) (level : CoinsLevel) : Except StackFailure (σ × CoinsLevel) :=
  batchLoop write willErase level.cacheCoins.keys.length (level.flagged.next none) receiver level

/-- `recomputed_usage` of `SanityCheck`. -/
def recomputedUsage (level : CoinsLevel) : BitVec 64 := (level.cacheCoins.keys.map level.usage).sum

/-- The assertion of `SanityCheck` about one entry: neither fresh alone, nor spent alone, nor all
three. -/
def checkEntry (entry : CCoinsCacheEntry) : Bool :=
  let attr := (if entry.dirty then 1 else 0) + (if entry.fresh then 2 else 0) +
    (if entry.coin.isSpent then 4 else 0)
  attr != 2 && attr != 4 && attr != 7

/-- The assertions of `SanityCheck` about one node of the ring. -/
def checkNode (level : CoinsLevel) (outpoint : COutPoint) : Bool :=
  level.flagged.prev (level.flagged.next (some outpoint)) == some outpoint &&
    level.flagged.next (level.flagged.prev (some outpoint)) == some outpoint &&
    (level.cacheCoins.lookup outpoint).any CCoinsCacheEntry.isFlagged

/-- `SanityCheck`: all its assertions hold. -/
def sanityCheck (level : CoinsLevel) : Bool :=
  let countFlagged := level.cacheCoins.entries.countP fun item => item.2.isFlagged
  level.cacheCoins.entries.all (fun item => checkEntry item.2) &&
    (level.flagged.walk level.cacheCoins.keys.length (level.flagged.next none)).any
      (fun linked => linked.all level.checkNode && linked.length == countFlagged) &&
    level.recomputedUsage == level.cachedCoinsUsage

end CoinsLevel

namespace CoinsLevel

/-- Sets the entry of an outpoint together with its memory and the counter. It gets into the ring
with its first flag. -/
def place (level : CoinsLevel) (outpoint : COutPoint) (entry : CCoinsCacheEntry) (allocated : Nat)
    (cachedCoinsUsage : BitVec 64) : CoinsLevel where
  hashBlock := level.hashBlock
  cacheCoins := level.cacheCoins.insert outpoint entry
  flagged :=
    if (level.cacheCoins.lookup outpoint).any CCoinsCacheEntry.isFlagged then level.flagged
    else if entry.isFlagged then level.flagged.pushBack outpoint else level.flagged
  allocated := Function.update level.allocated outpoint allocated
  cachedCoinsUsage := cachedCoinsUsage

section

variable (level : CoinsLevel) (outpoint : COutPoint) (entry : CCoinsCacheEntry) (allocated : Nat)
  (cachedCoinsUsage : BitVec 64)

@[simp] lemma lookup_place :
    (level.place outpoint entry allocated cachedCoinsUsage).cacheCoins.lookup outpoint =
      some entry :=
  lookup_insert _

lemma lookup_place_of_ne {key : COutPoint} (hne : key ≠ outpoint) :
    (level.place outpoint entry allocated cachedCoinsUsage).cacheCoins.lookup key =
      level.cacheCoins.lookup key :=
  lookup_insert_ne hne

@[simp] lemma allocated_place : (level.place outpoint entry allocated cachedCoinsUsage).allocated =
      update level.allocated outpoint allocated := rfl

@[simp] lemma cachedCoinsUsage_place :
    (level.place outpoint entry allocated cachedCoinsUsage).cachedCoinsUsage = cachedCoinsUsage :=
  rfl

end

section

variable {level : CoinsLevel} {outpoint : COutPoint}

lemma fetched_eq (hentry : level.cacheCoins.lookup outpoint = none) (coin : Coin)
    (allocated : Nat) :
    level.fetched outpoint coin allocated = level.place outpoint ⟨coin, false, coin.isSpent⟩
      allocated
        (level.cachedCoinsUsage + mallocUsage (BitVec.ofNat 64 allocated)) := by
  cases hspent : coin.isSpent <;>
    simp [fetched, emplace, setCoin, addUsage, setFresh, addFlags, place, hentry, hspent, usage,
      CCoinsCacheEntry.empty, CCoinsCacheEntry.isFlagged]

/-- What a cached coin counts; nothing without entry. -/
def counted (level : CoinsLevel) (outpoint : COutPoint) : BitVec 64 :=
  if (level.cacheCoins.lookup outpoint).isSome then level.usage outpoint else 0

lemma addCoin_eq {coin : Coin} (hunspent : coin.isSpent = false)
    (hspendable : Script.isUnspendable coin.out.scriptPubKey = false) (allocated : Nat)
    {possibleOverwrite : Bool} (hentry : possibleOverwrite ∨
      ((level.cacheCoins.lookup outpoint).getD .empty).coin.isSpent) :
    level.addCoin outpoint coin allocated possibleOverwrite = .ok (level.place outpoint
        ⟨coin, true, ((level.cacheCoins.lookup outpoint).getD .empty).fresh ||
          (!possibleOverwrite && !((level.cacheCoins.lookup outpoint).getD .empty).dirty)⟩ allocated
        (level.cachedCoinsUsage - level.counted outpoint +
          mallocUsage (BitVec.ofNat 64 allocated))) := by
  have hallowed : ∀ entry : CCoinsCacheEntry, possibleOverwrite ∨ entry.coin.isSpent →
      ¬(!possibleOverwrite && !entry.coin.isSpent) := by
    intro entry h
    rcases h with h | h <;> simp [h]
  cases hlookup : level.cacheCoins.lookup outpoint with
  | none =>
    cases possibleOverwrite <;>
      simp [addCoin, emplace, setCoin, addUsage, setDirty, setFresh, addFlags, place, counted,
        hlookup,
        hunspent, hspendable, usage, CCoinsCacheEntry.empty, CCoinsCacheEntry.isFlagged]
  | some entry =>
    rw [hlookup, Option.getD_some] at hentry
    simp only [addCoin, emplace, hunspent, hspendable, hlookup, Option.isSome_some,
      Option.getD_some, Option.isNone_some, Bool.false_eq_true, if_true, if_false,
      if_neg (hallowed entry hentry)]
    cases hfresh : (!possibleOverwrite && !entry.dirty) <;> cases hdirty : entry.dirty <;>
      cases hflag : entry.fresh <;>
      simp_all [setCoin, addUsage, subUsage, setDirty, setFresh, addFlags, place, counted, usage,
        CCoinsCacheEntry.isFlagged]

variable {entry : CCoinsCacheEntry}

lemma spend_eq (hentry : level.cacheCoins.lookup outpoint = some entry) :
    level.spend outpoint entry =
      if entry.fresh then (level.subUsage outpoint).erase outpoint
      else level.place outpoint ⟨.empty, true, false⟩ 0
        (level.cachedCoinsUsage - level.counted outpoint) := by
  cases hfresh : entry.fresh with
  | true => simp [spend, hfresh]
  | false =>
    cases hdirty : entry.dirty <;>
      simp [spend, hfresh, hdirty, setCoin, subUsage, setDirty, addFlags, place, counted,
        hentry, usage,
        isFlagged]

/-- A written entry takes the freshness of the entry it meets, if there is one. -/
def freshAfter (level : CoinsLevel) (outpoint : COutPoint) (entry : CCoinsCacheEntry) : Bool :=
  ((level.cacheCoins.lookup outpoint).map CCoinsCacheEntry.fresh).getD entry.fresh

lemma batchWriteEntry_eq (hdirty : entry.dirty)
    (hfresh : entry.fresh → ((level.cacheCoins.lookup outpoint).getD .empty).coin.isSpent)
    (hkept : (level.freshAfter outpoint entry && entry.coin.isSpent) = false) (allocated : Nat)
    (willErase : Bool) : ∃ memory, level.batchWriteEntry outpoint entry allocated willErase =
        .ok (level.place outpoint ⟨entry.coin, true, level.freshAfter outpoint entry⟩ memory
          (level.cachedCoinsUsage - level.counted outpoint +
            mallocUsage (BitVec.ofNat 64 memory))) ∧
      (willErase → memory = allocated) := by
  refine ⟨if willErase then allocated else assignedAllocation ((level.emplace outpoint).allocated
    outpoint) entry.coin.out.scriptPubKey, ?_, fun hmove => if_pos hmove⟩
  cases hlookup : level.cacheCoins.lookup outpoint with
  | none =>
    cases hflag : entry.fresh <;>
      simp_all [batchWriteEntry, freshAfter, emplace, setCoin, addUsage, setDirty, setFresh,
        addFlags,
        place, usage, counted, CCoinsCacheEntry.empty, CCoinsCacheEntry.isFlagged]
  | some itUs =>
    cases hflag : itUs.fresh <;> cases hold : itUs.dirty <;> cases hnew : entry.fresh <;>
      simp_all [batchWriteEntry, freshAfter, emplace, subUsage, setCoin, addUsage, setDirty,
        addFlags,
        place, usage, counted, isFlagged]

end

/-- The ring links exactly the flagged entries, in some order. -/
structure Linked (level : CoinsLevel) (keys : List COutPoint) : Prop where
  isRing : level.flagged.IsRing keys
  mem_iff : ∀ outpoint, outpoint ∈ keys ↔
    (level.cacheCoins.lookup outpoint).any CCoinsCacheEntry.isFlagged = true

variable {level : CoinsLevel} {outpoint : COutPoint}

lemma Linked.entry {keys : List COutPoint} (hlinked : level.Linked keys) (hmem : outpoint ∈ keys) :
    ∃ entry, level.cacheCoins.lookup outpoint = some entry ∧ entry.isFlagged := by
  have hflag := (hlinked.mem_iff outpoint).1 hmem
  cases hentry : level.cacheCoins.lookup outpoint with
  | none => simp [hentry] at hflag
  | some entry => exact ⟨entry, rfl, by simpa [hentry] using hflag⟩

/-- The ring and the counter of a cache are right, and a null coin holds no memory. -/
structure WellKept (level : CoinsLevel) : Prop where
  linked : ∃ keys, level.Linked keys
  countedEq : level.cachedCoinsUsage = level.recomputedUsage
  spentFree : ∀ outpoint entry, level.cacheCoins.lookup outpoint = some entry →
    entry.coin.isSpent = true → level.allocated outpoint = 0

/-- What the entries other than that of an outpoint count. -/
def restUsage (level : CoinsLevel) (outpoint : COutPoint) : BitVec 64 :=
  ((level.cacheCoins.keys.erase outpoint).map level.usage).sum

lemma recomputedUsage_eq (level : CoinsLevel) (outpoint : COutPoint) :
    level.recomputedUsage = level.counted outpoint + level.restUsage outpoint := by
  by_cases hmem : outpoint ∈ level.cacheCoins.keys
  · have hsome : (level.cacheCoins.lookup outpoint).isSome := lookup_isSome.2 (mem_keys.2 hmem)
    rw [counted, if_pos hsome, recomputedUsage, restUsage, sum_map_erase level.usage hmem]
  · have hnone : level.cacheCoins.lookup outpoint = none :=
      lookup_eq_none.2 fun h => hmem (mem_keys.1 h)
    simp [counted, hnone, recomputedUsage, restUsage, erase_of_not_mem hmem]

lemma restUsage_congr {other : CoinsLevel}
    (hkeys : other.cacheCoins.keys.erase outpoint = level.cacheCoins.keys.erase outpoint)
    (hallocated : ∀ key, key ≠ outpoint → other.allocated key = level.allocated key) :
    other.restUsage outpoint = level.restUsage outpoint := by
  rw [restUsage, restUsage, hkeys]
  refine congrArg sum (map_congr_left fun key hkey => ?_)
  have hne : key ≠ outpoint := fun heq =>
    (level.cacheCoins.keys_nodup.not_mem_erase (heq ▸ hkey))
  rw [usage, usage, hallocated key hne]

lemma restUsage_place (level : CoinsLevel) (outpoint : COutPoint) (entry : CCoinsCacheEntry)
    (allocated : Nat) (cachedCoinsUsage : BitVec 64) :
    (level.place outpoint entry allocated cachedCoinsUsage).restUsage outpoint =
      level.restUsage outpoint := by
  apply restUsage_congr
  · rw [place, keys_insert, erase_cons_head]
  · intro key hne
    exact update_of_ne hne ..

lemma WellKept.place (hlevel : level.WellKept) {entry : CCoinsCacheEntry} {allocated : Nat}
    {cachedCoinsUsage : BitVec 64}
    (hflag : (level.cacheCoins.lookup outpoint).any isFlagged → entry.isFlagged = true)
    (hspent : entry.coin.isSpent → allocated = 0)
    (husage : cachedCoinsUsage = level.cachedCoinsUsage - level.counted outpoint +
      mallocUsage (BitVec.ofNat 64 allocated)) :
    (level.place outpoint entry allocated cachedCoinsUsage).WellKept := by
  obtain ⟨keys, hring, hmem⟩ := hlevel.linked
  have hother : ∀ key, key ≠ outpoint →
      (level.place outpoint entry allocated cachedCoinsUsage).cacheCoins.lookup key =
        level.cacheCoins.lookup key := fun key hne => lookup_place_of_ne _ _ _ _ _ hne
  refine ⟨?_, ?_, ?_⟩
  · by_cases hold : (level.cacheCoins.lookup outpoint).any isFlagged = true
    · refine ⟨keys, by simpa only [CoinsLevel.place, if_pos hold] using hring, fun key => ?_⟩
      by_cases heq : key = outpoint
      · rw [heq, lookup_place, hmem outpoint, hold, any_some, hflag hold]
      · rw [hother key heq, hmem key]
    · have habsent : outpoint ∉ keys := fun h => hold ((hmem outpoint).1 h)
      by_cases hnew : entry.isFlagged = true
      · refine ⟨keys ++ [outpoint], ?_, fun key => ?_⟩
        · simpa only [CoinsLevel.place, if_neg hold, if_pos hnew] using hring.pushBack habsent
        · by_cases heq : key = outpoint
          · rw [heq, lookup_place, any_some, hnew]
            simp
          · rw [hother key heq, ← hmem key]
            simp [heq]
      · refine ⟨keys, ?_, fun key => ?_⟩
        · simpa only [CoinsLevel.place, if_neg hold, if_neg hnew] using hring
        · by_cases heq : key = outpoint
          · rw [heq, lookup_place, any_some]
            exact iff_of_false habsent hnew
          · rw [hother key heq, ← hmem key]
  · rw [recomputedUsage_eq _ outpoint, restUsage_place]
    have htotal := hlevel.countedEq
    rw [recomputedUsage_eq _ outpoint] at htotal
    have hcounted : (level.place outpoint entry allocated cachedCoinsUsage).counted outpoint =
        mallocUsage (BitVec.ofNat 64 allocated) := by
      rw [counted, lookup_place, isSome_some, if_pos rfl, usage, allocated_place, update_self]
    rw [hcounted, cachedCoinsUsage_place, husage, htotal]
    ring
  · intro key found hfound hnull
    by_cases heq : key = outpoint
    · subst heq
      rw [lookup_place, some.injEq] at hfound
      subst hfound
      rw [allocated_place, update_self, hspent hnull]
    · rw [hother key heq] at hfound
      rw [allocated_place, update_of_ne heq]
      exact hlevel.spentFree key found hfound hnull

variable {level : CoinsLevel} {outpoint : COutPoint}

lemma lookup_setClean_of_ne {key : COutPoint} (hne : key ≠ outpoint) :
    (level.setClean outpoint).cacheCoins.lookup key = level.cacheCoins.lookup key := by
  unfold setClean
  split
  · rfl
  · split
    · exact lookup_insert_ne hne
    · rfl

section

variable (level : CoinsLevel) (outpoint : COutPoint)

lemma lookup_setClean : (level.setClean outpoint).cacheCoins.lookup outpoint =
      (level.cacheCoins.lookup outpoint).map fun entry => ⟨entry.coin, false, false⟩ := by
  cases hentry : level.cacheCoins.lookup outpoint with
  | none => simp [setClean, hentry]
  | some entry =>
    obtain ⟨coin, dirty, fresh⟩ := entry
    cases dirty <;> cases fresh <;> simp [setClean, hentry, isFlagged]

lemma allocated_setClean : (level.setClean outpoint).allocated = level.allocated := by
  unfold setClean
  split
  · rfl
  · split <;> rfl

lemma cachedCoinsUsage_setClean :
    (level.setClean outpoint).cachedCoinsUsage = level.cachedCoinsUsage := by
  unfold setClean
  split
  · rfl
  · split <;> rfl

lemma hashBlock_setClean : (level.setClean outpoint).hashBlock = level.hashBlock := by
  unfold setClean
  split
  · rfl
  · split <;> rfl

lemma keys_setClean :
    (level.setClean outpoint).cacheCoins.keys.erase outpoint =
      level.cacheCoins.keys.erase outpoint := by
  unfold setClean
  split
  · rfl
  · split
    · rw [keys_insert, erase_cons_head]
    · rfl

end

variable {keys : List COutPoint}

lemma Linked.setClean (hlinked : level.Linked keys) (outpoint : COutPoint) :
    (level.setClean outpoint).Linked (keys.erase outpoint) := by
  obtain ⟨hring, hmem⟩ := hlinked
  constructor
  · by_cases hkey : outpoint ∈ keys
    · have hflag := (hmem outpoint).1 hkey
      obtain ⟨before, after, rfl⟩ := append_of_mem hkey
      have hbefore : outpoint ∉ before := by
        have hnodup := hring.nodup
        intro h
        exact (nodup_append.1 hnodup).2.2 outpoint h outpoint (by simp) rfl
      rw [erase_append_right _ hbefore, erase_cons_head]
      cases hentry : level.cacheCoins.lookup outpoint with
      | none => simp [hentry] at hflag
      | some entry =>
        rw [hentry, any_some] at hflag
        simpa only [CoinsLevel.setClean, hentry, if_pos hflag] using hring.unlink
    · have hflag := mt (hmem outpoint).2 hkey
      rw [erase_of_not_mem hkey]
      cases hentry : level.cacheCoins.lookup outpoint with
      | none => simpa only [CoinsLevel.setClean, hentry] using hring
      | some entry =>
        rw [hentry, any_some] at hflag
        simpa only [CoinsLevel.setClean, hentry, if_neg hflag] using hring
  · intro key
    by_cases heq : key = outpoint
    · subst heq
      rw [lookup_setClean]
      cases level.cacheCoins.lookup key <;> simp [hring.nodup.not_mem_erase, isFlagged]
    · rw [lookup_setClean_of_ne heq, ← hmem key, mem_erase_of_ne heq]

lemma lookup_erase_self (level : CoinsLevel) (outpoint : COutPoint) :
    (level.erase outpoint).cacheCoins.lookup outpoint = none :=
  lookup_erase ..

lemma lookup_erase_of_ne {key : COutPoint} (hne : key ≠ outpoint) :
    (level.erase outpoint).cacheCoins.lookup key = level.cacheCoins.lookup key := by
  rw [erase, lookup_erase_ne hne, lookup_setClean_of_ne hne]

section

variable (level : CoinsLevel) (outpoint : COutPoint)

lemma allocated_erase : (level.erase outpoint).allocated = level.allocated := allocated_setClean ..

lemma cachedCoinsUsage_erase : (level.erase outpoint).cachedCoinsUsage = level.cachedCoinsUsage :=
  cachedCoinsUsage_setClean ..

lemma hashBlock_erase : (level.erase outpoint).hashBlock = level.hashBlock := hashBlock_setClean ..

lemma keys_erase :
    (level.erase outpoint).cacheCoins.keys = level.cacheCoins.keys.erase outpoint := by
  rw [erase, AList.keys_erase, keys_setClean]

end

lemma Linked.erase (hlinked : level.Linked keys) (outpoint : COutPoint) :
    (level.erase outpoint).Linked (keys.erase outpoint) := by
  obtain ⟨hring, hmem⟩ := hlinked.setClean outpoint
  refine ⟨hring, fun key => ?_⟩
  by_cases heq : key = outpoint
  · subst heq
    rw [lookup_erase_self]
    simp [hlinked.isRing.nodup.not_mem_erase]
  · rw [hmem key, lookup_erase_of_ne heq, lookup_setClean_of_ne heq]

lemma restUsage_erase (level : CoinsLevel) (outpoint : COutPoint) :
    (level.erase outpoint).restUsage outpoint = level.restUsage outpoint := by
  apply restUsage_congr
  · rw [keys_erase, erase_of_not_mem]
    exact level.cacheCoins.keys_nodup.not_mem_erase
  · intro key _
    rw [allocated_erase]

lemma WellKept.erase (hlevel : level.WellKept) {outpoint : COutPoint}
    (hentry : (level.cacheCoins.lookup outpoint).isSome) :
    ((level.subUsage outpoint).erase outpoint).WellKept := by
  obtain ⟨keys, hlinked⟩ := hlevel.linked
  have hsub : (level.subUsage outpoint).Linked keys := ⟨hlinked.isRing, hlinked.mem_iff⟩
  refine ⟨⟨_, hsub.erase outpoint⟩, ?_, ?_⟩
  · have htotal := hlevel.countedEq
    rw [recomputedUsage_eq _ outpoint, counted, if_pos hentry] at htotal
    have hrest : (level.subUsage outpoint).restUsage outpoint = level.restUsage outpoint := rfl
    rw [recomputedUsage_eq _ outpoint, restUsage_erase, hrest, counted, lookup_erase_self,
      cachedCoinsUsage_erase, subUsage, htotal]
    simp
  · intro key entry hfound hnull
    by_cases heq : key = outpoint
    · rw [heq, lookup_erase_self] at hfound
      cases hfound
    · rw [lookup_erase_of_ne heq] at hfound
      rw [allocated_erase]
      exact hlevel.spentFree key entry hfound hnull

lemma WellKept.setClean (hlevel : level.WellKept) (outpoint : COutPoint) :
    (level.setClean outpoint).WellKept := by
  obtain ⟨keys, hlinked⟩ := hlevel.linked
  refine ⟨⟨_, hlinked.setClean outpoint⟩, ?_, ?_⟩
  · have hrest : (level.setClean outpoint).restUsage outpoint = level.restUsage outpoint :=
      restUsage_congr (keys_setClean ..) fun key _ => by rw [allocated_setClean]
    rw [cachedCoinsUsage_setClean, hlevel.countedEq, recomputedUsage_eq _ outpoint,
      recomputedUsage_eq _ outpoint, hrest, counted, counted, usage, usage, lookup_setClean,
      allocated_setClean, isSome_map]
  · intro key entry hfound hnull
    rw [allocated_setClean]
    by_cases heq : key = outpoint
    · subst heq
      rw [lookup_setClean] at hfound
      obtain ⟨old, hold, rfl⟩ := map_eq_some_iff.1 hfound
      exact hlevel.spentFree key old hold hnull
    · rw [lookup_setClean_of_ne heq] at hfound
      exact hlevel.spentFree key entry hfound hnull

lemma Linked.clear (hlinked : level.Linked keys) :
    level.clear.cacheCoins = ∅ ∧ level.clear.flagged = LinkedRing.empty ∧
      level.clear.hashBlock = level.hashBlock := by
  have hfold : ∀ (remaining : List COutPoint) (keys : List COutPoint) (level : CoinsLevel),
      level.Linked keys → (remaining.foldl .erase level).cacheCoins.keys =
          level.cacheCoins.keys.diff remaining ∧
        (remaining.foldl .erase level).hashBlock = level.hashBlock ∧
        ∃ keys', (remaining.foldl .erase level).Linked keys' := by
    intro remaining
    induction remaining with
    | nil =>
      intro keys level hlinked
      exact ⟨rfl, rfl, keys, hlinked⟩
    | cons key remaining ih =>
      intro keys level hlinked
      obtain ⟨hkeys, hhash, hlast⟩ := ih _ _ (hlinked.erase key)
      refine ⟨?_, hhash.trans (hashBlock_erase ..), hlast⟩
      rw [foldl_cons, hkeys, keys_erase, diff_cons]
  obtain ⟨hkeys, hhash, keys', hring, hmem⟩ := hfold level.cacheCoins.keys keys level hlinked
  have hnone : level.clear.cacheCoins.keys = [] := by
    refine eq_nil_iff_forall_not_mem.2 fun key hkey => ?_
    rw [CoinsLevel.clear, hkeys, level.cacheCoins.keys_nodup.mem_sdiff_iff] at hkey
    exact hkey.2 hkey.1
  have hempty : level.clear.cacheCoins = ∅ := by
    apply AList.ext
    exact map_eq_nil_iff.1 hnone
  refine ⟨hempty, ?_, hhash⟩
  have hkeys' : keys' = [] := by
    refine eq_nil_iff_forall_not_mem.2 fun key hkey => ?_
    have hflag := (hmem key).1 hkey
    rw [show (level.cacheCoins.keys.foldl CoinsLevel.erase level).cacheCoins = ∅ from hempty,
      lookup_empty] at hflag
    cases hflag
  subst hkeys'
  exact hring.eq_empty

end CoinsLevel

namespace CCoinsViewCache

/-- The flags of a cache also say when an entry repeats the base: it does so unless it is dirty.
A fresh entry is dirty, and an entry without coin holds the null coin. -/
structure Faithful (view : CCoinsViewCache) : Prop where
  valid : view.Valid
  cleanEq : ∀ outpoint entry, view.cacheCoins.lookup outpoint = some entry →
    entry.dirty = false → view.base.getCoin outpoint = some entry.coin
  freshDirty : ∀ outpoint entry, view.cacheCoins.lookup outpoint = some entry →
    entry.fresh = true → entry.dirty = true
  spentEmpty : ∀ outpoint entry, view.cacheCoins.lookup outpoint = some entry →
    entry.coin.isSpent = true → entry.coin = Coin.empty

variable {view : CCoinsViewCache}

section

variable (hview : view.Faithful)
include hview

lemma Faithful.store {outpoint : COutPoint} {entry : CCoinsCacheEntry}
    (hvalid : (view.store outpoint entry).Valid)
    (hclean : entry.dirty = false → view.base.getCoin outpoint = some entry.coin)
    (hdirty : entry.fresh → entry.dirty) (hempty : entry.coin.isSpent → entry.coin = Coin.empty) :
    (view.store outpoint entry).Faithful := by
  refine ⟨hvalid, ?_, ?_, ?_⟩ <;> intro other found hfound
  · rcases view.lookup_store_cases hfound with ⟨rfl, rfl⟩ | hold
    · exact hclean
    · exact hview.cleanEq other found hold
  · rcases view.lookup_store_cases hfound with ⟨rfl, rfl⟩ | hold
    · exact hdirty
    · exact hview.freshDirty other found hold
  · rcases view.lookup_store_cases hfound with ⟨rfl, rfl⟩ | hold
    · exact hempty
    · exact hview.spentEmpty other found hold

lemma Faithful.of_entries {other : CCoinsViewCache} (hbase : other.base = view.base)
    (hentries : ∀ outpoint entry, other.cacheCoins.lookup outpoint = some entry →
      view.cacheCoins.lookup outpoint = some entry) : other.Faithful := by
  refine ⟨⟨?_, ?_⟩, ?_, ?_, ?_⟩ <;> intro outpoint entry hentry
  · rw [hbase]
    exact hview.valid.freshAbsent outpoint entry (hentries outpoint entry hentry)
  · exact hview.valid.spentDirty outpoint entry (hentries outpoint entry hentry)
  · rw [hbase]
    exact hview.cleanEq outpoint entry (hentries outpoint entry hentry)
  · exact hview.freshDirty outpoint entry (hentries outpoint entry hentry)
  · exact hview.spentEmpty outpoint entry (hentries outpoint entry hentry)

lemma Faithful.drop (outpoint : COutPoint) : (view.drop outpoint).Faithful :=
  hview.of_entries rfl fun _ _ => view.lookup_of_drop

lemma Faithful.coins_of_clean {outpoint : COutPoint} {entry : CCoinsCacheEntry}
    (hentry : view.cacheCoins.lookup outpoint = some entry) (hdirty : entry.dirty = false) :
    view.coins outpoint = view.base.getCoin outpoint := by
  have hcoin := hview.cleanEq outpoint entry hentry hdirty
  rw [coins_of_lookup hentry, hcoin, view.base.getCoinUnspent outpoint entry.coin hcoin]
  rfl

end

lemma getBestBlock_fst (view : CCoinsViewCache) :
    view.getBestBlock.1 = if view.hashBlock = 0 then view.base.getBestBlock else
      view.hashBlock := by
  unfold getBestBlock
  split <;> rfl

/-- What can be seen through a cache, as a view for a cache on top of it. -/
def asView (view : CCoinsViewCache) : CCoinsView where
  getCoin := view.coins
  getBestBlock := view.getBestBlock.1
  getCoinUnspent := fun _ _ => coins_unspent

end CCoinsViewCache

namespace CoinsLevel

/-- A level over the view behind it, without the bookkeeping. -/
def onto (level : CoinsLevel) (view : CCoinsView) : CCoinsViewCache :=
  ⟨view, level.hashBlock, level.cacheCoins⟩

section

variable {level : CoinsLevel} {view : CCoinsView} {outpoint : COutPoint}

lemma onto_place (entry : CCoinsCacheEntry) (allocated : Nat) (cachedCoinsUsage : BitVec 64) :
    (level.place outpoint entry allocated cachedCoinsUsage).onto view =
      (level.onto view).store outpoint entry := rfl

lemma cacheCoins_setClean_erase (level : CoinsLevel) (outpoint : COutPoint) :
    (level.setClean outpoint).cacheCoins.erase outpoint = level.cacheCoins.erase outpoint := by
  unfold setClean
  split
  · rfl
  · split
    · apply AList.ext
      change kerase outpoint (insert outpoint _ level.cacheCoins).entries =
        kerase outpoint level.cacheCoins.entries
      simp
    · rfl

lemma onto_erase (level : CoinsLevel) (outpoint : COutPoint) :
    (level.erase outpoint).onto view = (level.onto view).drop outpoint := by
  rw [onto, hashBlock_erase, erase, cacheCoins_setClean_erase]
  rfl

/-- The books of the level are kept, and its flags are right over the view behind it. -/
structure Good (level : CoinsLevel) (view : CCoinsView) : Prop where
  kept : level.WellKept
  faithful : (level.onto view).Faithful

lemma good_empty (view : CCoinsView) : empty.Good view := by
  have hnone : ∀ key, empty.cacheCoins.lookup key = none := fun key => lookup_empty key
  refine ⟨⟨⟨[], LinkedRing.isRing_empty, ?_⟩, rfl, ?_⟩, ⟨?_, ?_⟩, ?_, ?_, ?_⟩
  · simp [hnone]
  all_goals
    intro key entry hentry
    cases (hnone key).symm.trans hentry

variable (hlevel : level.Good view)
include hlevel

lemma Good.fetched (hentry : level.cacheCoins.lookup outpoint = none)
    {coin : Coin} (hcoin : view.getCoin outpoint = some coin) (allocated : Nat) :
    (level.fetched outpoint coin allocated).Good view ∧
      (level.fetched outpoint coin allocated).onto view =
        ((level.onto view).fetchCoin outpoint).2 := by
  have hunspent := view.getCoinUnspent outpoint coin hcoin
  have honto : (level.fetched outpoint coin allocated).onto view =
      (level.onto view).store outpoint ⟨coin, false, coin.isSpent⟩ := by
    rw [fetched_eq hentry, onto_place]
  refine ⟨⟨?_, ?_⟩, ?_⟩
  · rw [fetched_eq hentry]
    apply hlevel.kept.place
    · simp [hentry]
    · simp [hunspent]
    · simp [counted, hentry]
  · rw [honto]
    apply hlevel.faithful.store
    · exact hlevel.faithful.valid.store (by simp [hunspent]) (by simp [hunspent])
    · exact fun _ => hcoin
    · simp [hunspent]
    · simp [hunspent]
  · rw [honto]
    have hbase : (level.onto view).base.getCoin outpoint = some coin := hcoin
    have hlookup : (level.onto view).cacheCoins.lookup outpoint = none := hentry
    simp [CCoinsViewCache.fetchCoin, hlookup, hbase]

lemma Good.placeDirty {coin : Coin} {fresh : Bool} {allocated : Nat}
    (hfresh : fresh = true → view.getCoin outpoint = none)
    (hspent : coin.isSpent → fresh = false ∧ coin = .empty ∧ allocated = 0) :
    (level.place outpoint ⟨coin, true, fresh⟩ allocated (level.cachedCoinsUsage -
      level.counted outpoint + mallocUsage (BitVec.ofNat 64 allocated))).Good view := by
  constructor
  · exact hlevel.kept.place (fun _ => rfl) (fun h => (hspent h).2.2) rfl
  · apply hlevel.faithful.store
    · exact hlevel.faithful.valid.store hfresh fun h => ⟨rfl, (hspent h).1⟩
    · simp
    · exact fun _ => rfl
    · exact fun h => (hspent h).2.1

lemma Good.erase {entry : CCoinsCacheEntry}
    (hentry : level.cacheCoins.lookup outpoint = some entry) :
    ((level.subUsage outpoint).erase outpoint).Good view ∧
      (((level.subUsage outpoint).erase outpoint).onto view).coins =
        update (level.onto view).coins outpoint (view.getCoin outpoint) := by
  have honto : ((level.subUsage outpoint).erase outpoint).onto view =
      (level.onto view).drop outpoint := onto_erase ..
  refine ⟨⟨hlevel.kept.erase (by simp [hentry]), ?_⟩, ?_⟩
  · rw [honto]
    exact hlevel.faithful.drop outpoint
  · rw [honto, CCoinsViewCache.coins_drop]
    rfl

lemma Good.addCoin {coin : Coin} (hunspent : coin.isSpent = false)
    (hspendable : Script.isUnspendable coin.out.scriptPubKey = false) (allocated : Nat)
    {possibleOverwrite : Bool}
    (habsent : (level.onto view).coins outpoint = none ∨ possibleOverwrite) :
    ∃ level', level.addCoin outpoint coin allocated possibleOverwrite = .ok level' ∧
      level'.Good view ∧ (level'.onto view).coins =
        (level.onto view).coins.insert outpoint coin := by
  obtain ⟨hallowed, hfresh⟩ := hlevel.faithful.valid.addable habsent
  refine ⟨_, addCoin_eq hunspent hspendable allocated hallowed,
    hlevel.placeDirty hfresh (by simp [hunspent]), ?_⟩
  rw [onto_place, CCoinsViewCache.coins_store, Store.insert, if_neg (by simp [hunspent])]

lemma Good.spend {entry : CCoinsCacheEntry}
    (hentry : level.cacheCoins.lookup outpoint = some entry) :
    (level.spend outpoint entry).Good view ∧
      ((level.spend outpoint entry).onto view).coins = (level.onto view).coins.erase outpoint := by
  rw [spend_eq hentry]
  cases hfresh : entry.fresh with
  | true =>
    have habsent : view.getCoin outpoint = none :=
      hlevel.faithful.valid.freshAbsent outpoint entry hentry hfresh
    obtain ⟨hgood, hcoins⟩ := hlevel.erase hentry
    rw [if_pos rfl, hcoins, habsent]
    exact ⟨hgood, rfl⟩
  | false =>
    rw [if_neg Bool.false_ne_true]
    constructor
    · simpa [mallocUsage] using
        @placeDirty _ _ outpoint hlevel .empty false 0 (by simp) (by simp)
    · rw [onto_place, CCoinsViewCache.coins_store, Store.erase, if_pos Coin.isSpent_empty]

lemma Good.uncache (outpoint : COutPoint) : (level.uncache outpoint).Good view ∧
      ((level.uncache outpoint).onto view).coins = (level.onto view).coins := by
  cases hentry : level.cacheCoins.lookup outpoint with
  | none => simpa [CoinsLevel.uncache, hentry] using hlevel
  | some entry =>
    by_cases hclean : (!entry.dirty && !entry.fresh) = true
    · have hdirty : entry.dirty = false := by
        simp only [Bool.and_eq_true, Bool.not_eq_true'] at hclean
        exact hclean.1
      have hsame := hlevel.faithful.coins_of_clean hentry hdirty
      obtain ⟨hgood, hcoins⟩ := hlevel.erase hentry
      simp only [CoinsLevel.uncache, hentry, if_pos hclean]
      exact ⟨hgood, hcoins.trans (update_eq_self_iff.2 hsame.symm)⟩
    · simpa [CoinsLevel.uncache, hentry, hclean] using hlevel

lemma Good.setHash (hashBlock : Uint256) :
    ({ level with hashBlock := hashBlock } : CoinsLevel).Good view ∧
      (({ level with hashBlock := hashBlock } : CoinsLevel).onto view).coins =
        (level.onto view).coins := by
  obtain ⟨keys, hring, hmem⟩ := hlevel.kept.linked
  refine ⟨⟨⟨⟨keys, hring, hmem⟩, hlevel.kept.countedEq, hlevel.kept.spentFree⟩, ?_⟩, ?_⟩
  · exact hlevel.faithful.of_entries rfl fun _ _ hentry => hentry
  · exact funext fun _ => CCoinsViewCache.coins_congr rfl rfl

end

lemma Good.sanityCheck {level : CoinsLevel} {view : CCoinsView} (hlevel : level.Good view) :
    level.sanityCheck := by
  obtain ⟨keys, hring, hmem⟩ := hlevel.kept.linked
  have hentries : ∀ item ∈ level.cacheCoins.entries, checkEntry item.2 := by
    intro item hitem
    have hlookup : level.cacheCoins.lookup item.1 = some item.2 := mem_lookup_iff.2 hitem
    have hspent := hlevel.faithful.valid.spentDirty item.1 item.2 hlookup
    have hfresh := hlevel.faithful.freshDirty item.1 item.2 hlookup
    cases hcoin : item.2.coin.isSpent <;> cases hflag : item.2.fresh <;>
      cases hdirty : item.2.dirty <;> simp_all [checkEntry]
  have hsame : ∀ key, key ∈ keys ↔
      key ∈ (level.cacheCoins.entries.filter fun item => item.2.isFlagged).map Sigma.fst := by
    intro key
    rw [hmem, List.mem_map]
    constructor
    · intro hflag
      obtain ⟨entry, hentry, hflag⟩ := Linked.entry ⟨hring, hmem⟩ ((hmem key).2 hflag)
      exact ⟨⟨key, entry⟩, mem_filter.2 ⟨mem_lookup_iff.1 hentry, hflag⟩, rfl⟩
    · rintro ⟨⟨key, entry⟩, hitem, rfl⟩
      obtain ⟨hitem, hflag⟩ := mem_filter.1 hitem
      rw [mem_lookup_iff.2 hitem]
      exact hflag
  have hflagged : keys.length = level.cacheCoins.entries.countP fun item => item.2.isFlagged := by
    have hnodup :
        ((level.cacheCoins.entries.filter fun item => item.2.isFlagged).map Sigma.fst).Nodup :=
      level.cacheCoins.keys_nodup.sublist (filter_sublist.map Sigma.fst)
    rw [((perm_ext_iff_of_nodup hring.nodup hnodup).2 hsame).length_eq, length_map,
      countP_eq_length_filter]
  have hfuel : keys.length ≤ level.cacheCoins.keys.length := by
    rw [hflagged, AList.keys, List.keys, List.length_map]
    exact countP_le_length
  have hwalk :
      level.flagged.walk level.cacheCoins.keys.length (level.flagged.next none) = some keys := by
    have hfirst : level.flagged.next none = keys.head? := hring.firstEq
    rw [hfirst]
    exact LinkedRing.IsRing.walk (nil_append keys ▸ hring) hfuel
  have hnodes : ∀ key ∈ keys, level.checkNode key := by
    intro key hkey
    simp [checkNode, hring.prev_next hkey, hring.next_prev hkey, (hmem key).1 hkey]
  rw [CoinsLevel.sanityCheck, hwalk, ← hflagged, ← hlevel.kept.countedEq]
  simpa using ⟨hentries, hnodes⟩

end CoinsLevel

end Tidecoin
