import Mathlib.Data.List.Basic

/-!
The set of `cuckoocache.h`, generic in its elements as the C++ template is. A slot of the table
holds an element and two flags: whether it may be overwritten and whether it belongs to the current
epoch. Elements are moved between their eight slots and dropped when no slot is found in time, so
nothing is sure to stay; but whatever is found was inserted, or is the value the table starts with.
-/

namespace Tidecoin

/-- `CuckooCache::cache`. The vectors are functions of the slot number. -/
structure CuckooCache (α : Type) where
  table : Nat → α
  size : Nat
  collectionFlags : Nat → Bool
  epochFlags : Nat → Bool
  epochHeuristicCounter : Nat
  epochSize : Nat
  depthLimit : Nat

namespace CuckooCache

variable {α : Type} [DecidableEq α]

/-- `setup`, for a depth limit computed from the size in floating point. Every slot holds the
default element and may be overwritten. The product for the epoch is of 32 bits. -/
def setup (default : α) (newSize depthLimit : Nat) : CuckooCache α where
  table _ := default
  size := max 2 newSize
  collectionFlags _ := true
  epochFlags _ := false
  epochHeuristicCounter := max 1 (45 * max 2 newSize % UInt32.size / 100)
  epochSize := max 1 (45 * max 2 newSize % UInt32.size / 100)
  depthLimit := depthLimit

section

variable (cache : CuckooCache α)

/-- `compute_hashes`: the eight slots of an element, each by `FastRange32` of a hash. -/
def computeHashes (hashFunction : Nat → α → UInt32) (e : α) : List Nat :=
  (List.range 8).map fun select => ((hashFunction select e).toNat * cache.size) >>> 32

def allowErase (loc : Nat) : CuckooCache α :=
  { cache with collectionFlags := Function.update cache.collectionFlags loc true }

/-- `please_keep`, together with the epoch of the slot. -/
def keep (loc : Nat) (epoch : Bool) : CuckooCache α :=
  { cache with
    collectionFlags := Function.update cache.collectionFlags loc false
    epochFlags := Function.update cache.epochFlags loc epoch }

def epochCheck : CuckooCache α :=
  if cache.epochHeuristicCounter ≠ 0 then
    { cache with epochHeuristicCounter := cache.epochHeuristicCounter - 1 }
  else
    let epochUnusedCount := ((List.range cache.size).filter fun i =>
      cache.epochFlags i && !cache.collectionFlags i).length
    if epochUnusedCount ≥ cache.epochSize then
      { cache with
        collectionFlags := fun i =>
          cache.collectionFlags i || (i < cache.size && !cache.epochFlags i)
        epochFlags := fun i => if i < cache.size then false else cache.epochFlags i
        epochHeuristicCounter := cache.epochSize }
    else
      { cache with
        epochHeuristicCounter :=
          max 1 (max (cache.epochSize / 16) (cache.epochSize - epochUnusedCount)) }

end

/-- The loop of `insert`: the element goes to a slot that may be overwritten, or it takes the slot
after the last one looked at and its old element is placed next. -/
def insertLoop (hashFunction : Nat → α → UInt32) :
    (depth : Nat) → CuckooCache α → (e : α) → (lastLoc : Option Nat) → (lastEpoch : Bool) →
      CuckooCache α
  | 0, cache, _, _, _ => cache
  | depth + 1, cache, e, lastLoc, lastEpoch =>
    let locs := cache.computeHashes hashFunction e
    match locs.find? cache.collectionFlags with
    | some loc => { cache with table := Function.update cache.table loc e }.keep loc lastEpoch
    | none =>
      let found := (lastLoc.map fun loc => locs.idxOf loc).getD locs.length
      let loc := locs.getD ((1 + found) &&& 7) 0
      insertLoop hashFunction depth
        { cache with
          table := Function.update cache.table loc e
          epochFlags := Function.update cache.epochFlags loc lastEpoch }
        (cache.table loc) (some loc) (cache.epochFlags loc)

section

variable (cache : CuckooCache α)

def insert (hashFunction : Nat → α → UInt32) (e : α) : CuckooCache α :=
  let cache := cache.epochCheck
  match (cache.computeHashes hashFunction e).find? fun loc => cache.table loc = e with
  | some loc => cache.keep loc true
  | none => insertLoop hashFunction cache.depthLimit cache e none true

def contains (hashFunction : Nat → α → UInt32) (e : α) (erase : Bool) : Bool × CuckooCache α :=
  match (cache.computeHashes hashFunction e).find? fun loc => cache.table loc = e with
  | some loc => (true, if erase then cache.allowErase loc else cache)
  | none => (false, cache)

/-- Every slot holds an element with the property. -/
def Holds (property : α → Prop) : Prop := ∀ loc, property (cache.table loc)

omit [DecidableEq α] in
@[simp] lemma epochCheck_table : cache.epochCheck.table = cache.table := by
  unfold epochCheck
  dsimp only
  split
  · rfl
  · split <;> rfl

end

variable {cache : CuckooCache α} {property : α → Prop}

variable (hcache : cache.Holds property) (hashFunction : Nat → α → UInt32)
include hcache hashFunction

omit [DecidableEq α] in
lemma Holds.insertLoop (depth : Nat) {e : α} (he : property e) (lastLoc : Option Nat)
    (lastEpoch : Bool) :
    (insertLoop hashFunction depth cache e lastLoc lastEpoch).Holds property := by
  have hput : ∀ {cache : CuckooCache α} {e : α}, cache.Holds property → property e →
      ∀ loc other, property (Function.update cache.table loc e other) := by
    intro cache e hcache he loc other
    by_cases heq : other = loc
    · rw [heq, Function.update_self]
      exact he
    · rw [Function.update_of_ne heq]
      exact hcache other
  induction depth generalizing cache e lastLoc lastEpoch with
  | zero => exact hcache
  | succ depth ih =>
    rw [CuckooCache.insertLoop]
    split
    case h_1 loc _ => exact hput hcache he loc
    case h_2 =>
      apply ih
      · exact hput hcache he _
      · exact hcache _

lemma Holds.insert {e : α} (he : property e) : (cache.insert hashFunction e).Holds property := by
  have hchecked : cache.epochCheck.Holds property := by
    intro loc
    rw [epochCheck_table]
    exact hcache loc
  rw [CuckooCache.insert]
  split
  · exact hchecked
  · exact hchecked.insertLoop hashFunction _ he none true

lemma Holds.contains (e : α) (erase : Bool) :
    ((cache.contains hashFunction e erase).1 → property e) ∧
      (cache.contains hashFunction e erase).2.Holds property := by
  rw [CuckooCache.contains]
  split
  case h_1 loc hfind =>
    have hloc : cache.table loc = e := by simpa using List.find?_some hfind
    refine ⟨fun _ => hloc ▸ hcache loc, ?_⟩
    split <;> exact hcache
  case h_2 =>
    refine ⟨fun hfound => ?_, hcache⟩
    cases hfound

end CuckooCache

end Tidecoin
