import Tidecoin.Coins.Level

/-!
Bulk modifications: `Flush` and `Sync` hand a cursor over the ring of flagged entries to
`BatchWrite` of the view behind, which takes the dirty entries over. The receiver then holds the
coins that could be seen through the cache.
-/

namespace Tidecoin

open Lib CCoinsViewCache Option List Function

variable {level : CoinsLevel} {view : CCoinsView}

namespace CoinsLevel

/-- What a written entry makes of the coins: a dirty one sets its outpoint. -/
def written (coins : Store COutPoint Coin) (outpoint : COutPoint) (entry : CCoinsCacheEntry) :
    Store COutPoint Coin :=
  if entry.dirty then Function.update coins outpoint (if entry.coin.isSpent then none else
    some entry.coin)
  else coins

/-- An entry of the cache above fits the coins it is written to. -/
structure Writable (coins : Store COutPoint Coin) (outpoint : COutPoint) (entry : CCoinsCacheEntry)
    (allocated : Nat) : Prop where
  freshAbsent : entry.fresh = true → coins outpoint = none
  spentNull : entry.coin.isSpent = true → entry.fresh = false ∧ entry.coin = Coin.empty ∧
    allocated = 0

section

variable {entry : CCoinsCacheEntry}

/-- One entry of `BatchWrite`. A fresh one meets no unspent coin, so nothing is thrown. It stays
fresh only where it is new to this cache, since then the views behind have no coin either. -/
theorem Good.batchWriteEntry (hlevel : level.Good view) {outpoint : COutPoint} {allocated : Nat}
    (hentry : Writable (level.onto view).coins outpoint entry allocated) (willErase : Bool) :
    ∃ level', level.batchWriteEntry outpoint entry allocated (willErase || entry.coin.isSpent) =
        .ok level' ∧ level'.Good view ∧
      (level'.onto view).coins = written (level.onto view).coins outpoint entry ∧
      level'.hashBlock = level.hashBlock := by
  cases hdirty : entry.dirty with
  | false =>
    refine ⟨level, ?_, hlevel, ?_, rfl⟩
    · simp [CoinsLevel.batchWriteEntry, hdirty]
    · simp [written, hdirty]
  | true =>
    rw [written, if_pos hdirty]
    have habsent : level.freshAfter outpoint entry = true → view.getCoin outpoint = none := by
      intro hfresh
      cases hlookup : level.cacheCoins.lookup outpoint with
      | none =>
        have hbehind := @coins_of_lookup_none (level.onto view) outpoint hlookup
        exact hbehind.symm.trans (hentry.freshAbsent (by simpa [freshAfter, hlookup] using hfresh))
      | some itUs =>
        exact hlevel.faithful.valid.freshAbsent outpoint itUs hlookup
          (by simpa [freshAfter, hlookup] using hfresh)
    have hmet : entry.fresh → ((level.cacheCoins.lookup outpoint).getD .empty).coin.isSpent := by
      intro hfresh
      have hnone := hentry.freshAbsent hfresh
      cases hlookup : level.cacheCoins.lookup outpoint with
      | none => rfl
      | some itUs =>
        rw [@coins_of_lookup (level.onto view) outpoint itUs hlookup] at hnone
        simpa using hnone
    cases hgone : level.freshAfter outpoint entry && entry.coin.isSpent with
    | true =>
      obtain ⟨hfresh, hspent⟩ := Bool.and_eq_true_iff.1 hgone
      cases hlookup : level.cacheCoins.lookup outpoint with
      | none => simp [freshAfter, hlookup, hentry.spentNull hspent] at hfresh
      | some itUs =>
        obtain ⟨hgood, hcoins⟩ := hlevel.erase hlookup
        refine ⟨_, ?_, hgood, ?_, hashBlock_erase ..⟩
        · simp_all [CoinsLevel.batchWriteEntry, freshAfter]
        · rw [hcoins, habsent hfresh, if_pos hspent]
    | false =>
      obtain ⟨memory, hwrite, hmove⟩ :=
        batchWriteEntry_eq hdirty hmet hgone allocated (willErase || entry.coin.isSpent)
      refine ⟨_, hwrite, hlevel.placeDirty habsent fun hspent => ?_, ?_, rfl⟩
      · obtain ⟨-, hnull, hfree⟩ := hentry.spentNull hspent
        rw [hspent, Bool.and_true] at hgone
        exact ⟨hgone, hnull, (hmove (by simp [hspent])).trans hfree⟩
      · rw [onto_place, coins_store]

/-- What `Sync` leaves of an entry: a spent one goes, another one loses its flags. -/
def settled (entry : CCoinsCacheEntry) : Option CCoinsCacheEntry :=
  if entry.isFlagged then
    if entry.coin.isSpent then none else some ⟨entry.coin, false, false⟩
  else some entry

/-- The cache in the middle of `Sync`, with the rest of the ring still to be written. -/
structure Settling (level : CoinsLevel) (rest : List COutPoint) (current : CoinsLevel) : Prop where
  kept : current.WellKept
  linked : current.Linked rest
  lookup_eq : ∀ outpoint, current.cacheCoins.lookup outpoint =
    if outpoint ∈ rest then level.cacheCoins.lookup outpoint
    else (level.cacheCoins.lookup outpoint).bind settled
  hashBlockEq : current.hashBlock = level.hashBlock

lemma Settling.step {current : CoinsLevel} {outpoint : COutPoint} {rest : List COutPoint}
    (hcurrent : level.Settling (outpoint :: rest) current)
    (hentry : level.cacheCoins.lookup outpoint = some entry) :
    level.Settling rest (current.maybeErase false outpoint entry) := by
  have hlookup : current.cacheCoins.lookup outpoint = some entry := by
    rw [hcurrent.lookup_eq, if_pos (by simp), hentry]
  have hflagged : entry.isFlagged := by
    have hmem := (hcurrent.linked.mem_iff outpoint).1 (by simp)
    rwa [hlookup, any_some] at hmem
  have hnotin : outpoint ∉ rest := (nodup_cons.1 hcurrent.linked.isRing.nodup).1
  have hother : ∀ key, key ≠ outpoint → (if key ∈ outpoint :: rest then level.cacheCoins.lookup key
      else (level.cacheCoins.lookup key).bind settled) =
      if key ∈ rest then level.cacheCoins.lookup key
      else (level.cacheCoins.lookup key).bind settled := by
    intro key hne
    simp [hne]
  by_cases hspent : entry.coin.isSpent = true
  · have hform : current.maybeErase false outpoint entry =
        (current.subUsage outpoint).erase outpoint := by
      simp [maybeErase, hspent]
    have hlinked : (current.subUsage outpoint).Linked (outpoint :: rest) :=
      ⟨hcurrent.linked.isRing, hcurrent.linked.mem_iff⟩
    rw [hform]
    refine ⟨hcurrent.kept.erase (by simp [hlookup]), ?_, ?_, ?_⟩
    · simpa using hlinked.erase outpoint
    · intro key
      by_cases heq : key = outpoint
      · rw [heq, lookup_erase_self, if_neg hnotin, hentry, bind_some, settled,
          if_pos hflagged, if_pos hspent]
      · rw [lookup_erase_of_ne heq, ← hother key heq]
        exact hcurrent.lookup_eq key
    · rw [hashBlock_erase]
      exact hcurrent.hashBlockEq
  · have hform : current.maybeErase false outpoint entry = current.setClean outpoint := by
      simp [maybeErase, hspent]
    rw [hform]
    refine ⟨hcurrent.kept.setClean outpoint, ?_, ?_, ?_⟩
    · simpa using hcurrent.linked.setClean outpoint
    · intro key
      by_cases heq : key = outpoint
      · rw [heq, lookup_setClean, hlookup, if_neg hnotin, hentry, bind_some, settled,
          if_pos hflagged, if_neg hspent, map_some]
      · rw [lookup_setClean_of_ne heq, ← hother key heq]
        exact hcurrent.lookup_eq key
    · rw [hashBlock_setClean]
      exact hcurrent.hashBlockEq

lemma WellKept.settling (hlevel : level.WellKept) {keys : List COutPoint}
    (hkeys : level.Linked keys) : level.Settling keys level := by
  refine ⟨hlevel, hkeys, fun key => ?_, rfl⟩
  split
  · rfl
  · have hflag := mt (hkeys.mem_iff key).2 ‹_›
    cases hentry : level.cacheCoins.lookup key with
    | none => rfl
    | some entry =>
      rw [hentry, any_some] at hflag
      rw [bind_some, settled, if_neg hflag]

/-- The cache above in the middle of a bulk modification: `Flush` leaves it alone, `Sync` settles
one entry after the other. -/
def Progress (level : CoinsLevel) (willErase : Bool) (rest : List COutPoint)
    (current : CoinsLevel) : Prop :=
  if willErase then current = level else level.Settling rest current

lemma Progress.next {current : CoinsLevel} {willErase : Bool} {key : COutPoint}
    {rest : List COutPoint} (hcurrent : level.Progress willErase (key :: rest) current)
    (hlevel : level.WellKept) {keys before : List COutPoint} (hkeys : level.Linked keys)
    (hsplit : keys = before ++ key :: rest) (hentry : level.cacheCoins.lookup key = some entry) :
    current.cacheCoins.lookup key = some entry ∧ current.flagged.next (some key) = rest.head? ∧
      (entry.coin.isSpent → current.allocated key = 0) ∧
      level.Progress willErase rest (current.maybeErase willErase key entry) := by
  cases willErase with
  | true =>
    have heq : current = level := by simpa [Progress] using hcurrent
    subst heq
    rw [hsplit] at hkeys
    refine ⟨hentry, hkeys.isRing.next_some, hlevel.spentFree key entry hentry, ?_⟩
    simp [Progress, maybeErase]
  | false =>
    have hsettling : level.Settling (key :: rest) current := by simpa [Progress] using hcurrent
    have hlookup : current.cacheCoins.lookup key = some entry := by
      rw [hsettling.lookup_eq, if_pos (by simp), hentry]
    have hring : current.flagged.IsRing ([] ++ key :: rest) := hsettling.linked.isRing
    refine ⟨hlookup, hring.next_some, hsettling.kept.spentFree key entry hlookup, ?_⟩
    simpa [Progress] using hsettling.step hentry

end

/-- A write of an entry that fits succeeds, and the receiver then holds what the entry makes of the
coins. -/
def Receives {σ : Type}
    (write : σ → COutPoint → CCoinsCacheEntry → Nat → Bool → Except StackFailure σ)
    (Holds : σ → Store COutPoint Coin → Prop) : Prop :=
  ∀ receiver coins outpoint entry allocated willErase, Holds receiver coins →
    Writable coins outpoint entry allocated →
    ∃ receiver', write receiver outpoint entry allocated (willErase || entry.coin.isSpent) =
      .ok receiver' ∧ Holds receiver' (written coins outpoint entry)

lemma receives_batchWriteEntry (view : CCoinsView) : Receives CoinsLevel.batchWriteEntry
    fun receiver coins => receiver.Good view ∧ (receiver.onto view).coins = coins := by
  rintro receiver _ outpoint entry allocated willErase ⟨hreceiver, rfl⟩ hwritable
  obtain ⟨receiver', hrun, hgood, hcoins, -⟩ := hreceiver.batchWriteEntry hwritable willErase
  exact ⟨receiver', hrun, hgood, hcoins⟩

section

variable {σ : Type} {write : σ → COutPoint → CCoinsCacheEntry → Nat → Bool → Except StackFailure σ}
  {Holds : σ → Store COutPoint Coin → Prop} (hwrite : Receives write Holds)
include hwrite

/-- The loop writes what is left of the ring. The receiver then holds the coins that can be seen
through the cache. -/
theorem Good.batchLoop (hlevel : level.Good view) (willErase : Bool) {keys : List COutPoint}
    (hkeys : level.Linked keys) {before rest : List COutPoint} (hsplit : keys = before ++ rest)
    {fuel : Nat} (hfuel : rest.length ≤ fuel) {receiver : σ} {coins : Store COutPoint Coin}
    (hreceiver : Holds receiver coins) (hrest : ∀ key ∈ rest, coins key = view.getCoin key)
    (hdone : ∀ key, key ∉ rest → coins key = (level.onto view).coins key) {current : CoinsLevel}
    (hcurrent : level.Progress willErase rest current) :
    ∃ receiver' current', batchLoop write willErase fuel rest.head? receiver current =
        .ok (receiver', current') ∧ Holds receiver' (level.onto view).coins ∧
      level.Progress willErase [] current' := by
  induction rest generalizing before fuel receiver coins current with
  | nil =>
    have hcoins : coins = (level.onto view).coins := funext fun key => hdone key (by simp)
    refine ⟨receiver, current, ?_, hcoins ▸ hreceiver, hcurrent⟩
    cases fuel <;> rfl
  | cons key rest ih =>
    obtain ⟨fuel, rfl⟩ : ∃ fuel', fuel = fuel' + 1 := by
      cases fuel with
      | zero => simp at hfuel
      | succ fuel => exact ⟨fuel, rfl⟩
    obtain ⟨entry, hentry, hflagged⟩ := hkeys.entry (hsplit ▸ mem_append_right before mem_cons_self)
    have hnodup := hkeys.isRing.nodup
    rw [hsplit] at hnodup
    have hnotin : key ∉ rest := (nodup_cons.1 (nodup_append.1 hnodup).2.1).1
    have hdirty : entry.dirty := by
      rcases Bool.or_eq_true_iff.1 hflagged with hdirty | hfresh
      · exact hdirty
      · exact hlevel.faithful.freshDirty key entry hentry hfresh
    obtain ⟨hlookup, hnext, hmemory, hprogress⟩ := hcurrent.next hlevel.kept hkeys hsplit hentry
    have hwritable : Writable coins key entry (current.allocated key) := by
      constructor
      · intro hfresh
        rw [hrest key (by simp)]
        exact hlevel.faithful.valid.freshAbsent key entry hentry hfresh
      · intro hspent
        exact ⟨(hlevel.faithful.valid.spentDirty key entry hentry hspent).2,
          hlevel.faithful.spentEmpty key entry hentry hspent, hmemory hspent⟩
    obtain ⟨receiver', hrun, hreceiver'⟩ :=
      hwrite receiver coins key entry (current.allocated key) willErase hreceiver hwritable
    have hcoins : written coins key entry = update coins key ((level.onto view).coins key) := by
      rw [written, if_pos hdirty, coins_of_lookup hentry]
    have hsplit' : keys = (before ++ [key]) ++ rest := by simpa using hsplit
    obtain ⟨last, current', hloop, hlast⟩ := ih hsplit' (Nat.le_of_succ_le_succ hfuel) hreceiver'
      (fun other hother => by
        have hne : other ≠ key := fun heq => hnotin (heq ▸ hother)
        rw [hcoins, update_of_ne hne]
        exact hrest other (mem_cons_of_mem _ hother))
      (fun other hother => by
        by_cases heq : other = key
        · rw [hcoins, heq, update_self]
        · rw [hcoins, update_of_ne heq]
          exact hdone other (by simp [heq, hother]))
      hprogress
    refine ⟨last, current', ?_, hlast⟩
    simp only [head?_cons, CoinsLevel.batchLoop, hlookup, hnext]
    rw [hrun]
    exact hloop

lemma Good.batchWrite (hlevel : level.Good view) (willErase : Bool) {receiver : σ}
    (hreceiver : Holds receiver view.getCoin) :
    ∃ receiver' current', level.batchWrite write willErase receiver = .ok (receiver', current') ∧
      Holds receiver' (level.onto view).coins ∧ level.Progress willErase [] current' := by
  obtain ⟨keys, hkeys⟩ := hlevel.kept.linked
  have hfuel : keys.length ≤ level.cacheCoins.keys.length := by
    apply Subperm.length_le
    refine subperm_of_subset hkeys.isRing.nodup fun key hkey => ?_
    obtain ⟨entry, hentry, -⟩ := hkeys.entry hkey
    exact AList.mem_keys.1 (AList.lookup_isSome.1 (by simp [hentry]))
  have hdone : ∀ key, key ∉ keys → view.getCoin key = (level.onto view).coins key := by
    intro key hkey
    cases hentry : level.cacheCoins.lookup key with
    | none => exact (@CCoinsViewCache.coins_of_lookup_none (level.onto view) key hentry).symm
    | some entry =>
      have hflag := mt (hkeys.mem_iff key).2 hkey
      rw [hentry, any_some, CCoinsCacheEntry.isFlagged, Bool.or_eq_true, not_or] at hflag
      exact (hlevel.faithful.coins_of_clean hentry (by simpa using hflag.1)).symm
  have hstart : level.Progress willErase keys level := by
    cases willErase with
    | true => rfl
    | false => exact hlevel.kept.settling hkeys
  have hnext : level.flagged.next none = keys.head? := hkeys.isRing.firstEq
  rw [CoinsLevel.batchWrite, hnext]
  exact hlevel.batchLoop hwrite willErase hkeys (nil_append keys).symm hfuel hreceiver
    (fun _ _ => rfl) hdone hstart

end

variable {current : CoinsLevel} {view' : CCoinsView}

lemma Settling.good (hlevel : level.Good view) (hcurrent : level.Settling [] current)
    (hview : view'.getCoin = (level.onto view).coins) :
    current.Good view' ∧ (current.onto view').coins = (level.onto view).coins ∧
      current.flagged.next none = none := by
  have hentries : ∀ key entry, current.cacheCoins.lookup key = some entry →
      entry.fresh = false ∧ entry.coin.isSpent = false ∧ view'.getCoin key = some entry.coin := by
    intro key entry hentry
    rw [hcurrent.lookup_eq, if_neg (by simp)] at hentry
    obtain ⟨old, hold, hsettled⟩ := bind_eq_some_iff.1 hentry
    rw [hview, coins_of_lookup hold]
    simp only [settled] at hsettled
    split at hsettled
    · split at hsettled
      · cases hsettled
      · cases hsettled
        simp_all
    · cases hsettled
      have hclean : entry.dirty = false ∧ entry.fresh = false := by
        simpa [CCoinsCacheEntry.isFlagged] using ‹¬entry.isFlagged = true›
      have hunspent : entry.coin.isSpent = false := by
        by_contra hspent
        rw [(hlevel.faithful.valid.spentDirty key entry hold (by simpa using hspent)).1] at hclean
        exact Bool.false_ne_true hclean.1.symm
      exact ⟨hclean.2, hunspent, by simp [hunspent]⟩
  refine ⟨⟨hcurrent.kept, ⟨?_, ?_⟩, ?_, ?_, ?_⟩, ?_, ?_⟩
  · intro key entry hentry hfresh
    rw [(hentries key entry hentry).1] at hfresh
    cases hfresh
  · intro key entry hentry hspent
    rw [(hentries key entry hentry).2.1] at hspent
    cases hspent
  · intro key entry hentry _
    exact (hentries key entry hentry).2.2
  · intro key entry hentry hfresh
    rw [(hentries key entry hentry).1] at hfresh
    cases hfresh
  · intro key entry hentry hspent
    rw [(hentries key entry hentry).2.1] at hspent
    cases hspent
  · funext key
    cases hentry : current.cacheCoins.lookup key with
    | none => rw [coins_of_lookup_none hentry, ← hview]; rfl
    | some entry =>
      obtain ⟨-, hunspent, hcoin⟩ := hentries key entry hentry
      rw [coins_of_lookup hentry, hunspent, ← hview, hcoin]
      rfl
  · exact hcurrent.linked.isRing.firstEq

lemma WellKept.clear (hlevel : level.WellKept) (view : CCoinsView) :
    ({ level.clear with cachedCoinsUsage := 0 } : CoinsLevel).Good view ∧
      (({ level.clear with cachedCoinsUsage := 0 } : CoinsLevel).onto view).coins =
        view.getCoin := by
  obtain ⟨keys, hkeys⟩ := hlevel.linked
  obtain ⟨hcoins, hring, -⟩ := hkeys.clear
  have hnone : ∀ key, level.clear.cacheCoins.lookup key = none := by
    intro key
    rw [hcoins, AList.lookup_empty]
  refine ⟨⟨⟨⟨[], ?_, ?_⟩, ?_, ?_⟩, ⟨?_, ?_⟩, ?_, ?_, ?_⟩, ?_⟩
  · exact hring ▸ LinkedRing.isRing_empty
  · simp [hnone]
  · simp [recomputedUsage, hcoins]
  rotate_right
  · funext key
    exact coins_of_lookup_none (hnone key)
  all_goals
    intro key entry hentry
    cases (hnone key).symm.trans hentry

end CoinsLevel

end Tidecoin
