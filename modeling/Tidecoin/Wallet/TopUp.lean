import Tidecoin.Script.DescriptorCache
import Tidecoin.Wallet.Manager

/-!
What a top-up can do. The cache of a manager grows by keys that are derived from the seeds of the
wallet, the range grows with it, and everything else about the manager stays: its counter, its keys
and whether its cache was checked. A top-up that does not succeed leaves nothing behind.
-/

namespace Tidecoin

open Lib AList Option CWallet

variable {seeds : SeedSource} {manager : DescriptorScriptPubKeyMan} {m : CWallet} {d : Records}
  {listeners : List (Listener CWallet)}

/-- The cache has grown by entries with the property only. -/
def DescriptorCache.Adds (before after : DescriptorCache) (P : Nat × Nat → CPubKey → Prop) : Prop :=
  ∀ place key, after.lookup place = some key → before.lookup place = some key ∨ P place key

namespace DescriptorCache.Adds

variable {before after last : DescriptorCache} {P Q : Nat × Nat → CPubKey → Prop}

lemma refl (cache : DescriptorCache) : cache.Adds cache P := fun _ _ h => .inl h

lemma trans (hfirst : before.Adds after P) (hsecond : after.Adds last P) : before.Adds last P := by
  intro place key hkey
  rcases hsecond place key hkey with hafter | hadded
  · exact hfirst place key hafter
  · exact .inr hadded

lemma mono (h : before.Adds after P) (himp : ∀ place key, P place key → Q place key) :
    before.Adds after Q := by
  intro place key hkey
  rcases h place key hkey with hbefore | hadded
  · exact .inl hbefore
  · exact .inr (himp place key hadded)

lemma insert {place : Nat × Nat} {key : CPubKey} (h : P place key) :
    before.Adds (insert place key before) P := by
  intro other found hfound
  by_cases heq : other = place
  · subst heq
    rw [lookup_insert, some_inj] at hfound
    subst hfound
    exact .inr h
  · rw [lookup_insert_ne heq] at hfound
    exact .inl hfound

end DescriptorCache.Adds

section

variable [Crypto] [PqhdKeys]

/-- The key of an expression at a place of the cache, derived from the seeds. -/
def PubkeyProvider.Derives (provider : PubkeyProvider) (seeds : SeedSource) (place : Nat × Nat)
    (pubkey : CPubKey) : Prop :=
  ∃ seedId path derive scheme, provider = .pqhd place.1 seedId path derive scheme ∧
    ∃ seed pos secret, seeds seedId = some seed ∧ PubkeyProvider.derIndex derive pos = place.2 ∧
      PubkeyProvider.deriveLeaf seed path derive scheme pos = some secret ∧ pubkey = secret.pubkey

/-- The key of one of the expressions of a descriptor, derived from the seeds. -/
def Descriptor.Derives (desc : Descriptor) (seeds : SeedSource) (place : Nat × Nat)
    (pubkey : CPubKey) : Prop :=
  ∃ provider ∈ desc.pubkeyArgs, provider.Derives seeds place pubkey

lemma PubkeyProvider.getPubKey_adds {provider : PubkeyProvider} {pos : Int}
    {out : FlatSigningProvider} {writeCache : DescriptorCache} {expanded : Expanded CPubKey}
    (h : provider.getPubKey pos seeds out none writeCache = some expanded) :
    writeCache.Adds expanded.writeCache (provider.Derives seeds) := by
  cases provider with
  | const exprIndex pubkey =>
    simp only [getPubKey, some_inj] at h
    subst h
    exact .refl _
  | pqhd exprIndex seedId path derive scheme =>
    simp only [getPubKey] at h
    split at h
    · cases h
    · simp only [bind_eq_bind, bind_eq_some_iff, pure_def, some_inj] at h
      obtain ⟨seed, hseed, secret, hsecret, rfl⟩ := h
      exact .insert ⟨seedId, path, derive, scheme, rfl, seed, pos.toNat, secret, hseed, rfl,
        hsecret, rfl⟩

lemma PubkeyProvider.getPubKeys_adds {pos : Int} (providers : List PubkeyProvider) :
    ∀ {out : FlatSigningProvider} {writeCache : DescriptorCache}
      {expanded : Expanded (List CPubKey)},
      getPubKeys providers pos seeds out none writeCache = some expanded →
      writeCache.Adds expanded.writeCache fun place key =>
        ∃ provider ∈ providers, provider.Derives seeds place key := by
  induction providers with
  | nil =>
    intro out writeCache expanded h
    simp only [getPubKeys, some_inj] at h
    subst h
    exact .refl _
  | cons provider providers ih =>
    intro out writeCache expanded h
    simp only [getPubKeys, bind_eq_bind, bind_eq_some_iff, pure_def, some_inj] at h
    obtain ⟨first, hfirst, others, hothers, rfl⟩ := h
    have hhead := (getPubKey_adds hfirst).mono (Q := fun place key =>
      ∃ p ∈ provider :: providers, p.Derives seeds place key)
      fun place key hd => ⟨provider, List.mem_cons_self, hd⟩
    have htail := (ih hothers).mono (Q := fun place key =>
      ∃ p ∈ provider :: providers, p.Derives seeds place key)
      fun place key hd => hd.imp fun p hp => ⟨List.mem_cons_of_mem _ hp.1, hp.2⟩
    exact hhead.trans htail

namespace Descriptor

variable {pos : Int} {out : FlatSigningProvider} {writeCache : DescriptorCache}
  {expanded : Expanded (List Bytes)}

lemma expandHelper_adds (desc : Descriptor)
    (h : desc.expandHelper pos seeds none out writeCache = some expanded) :
    writeCache.Adds expanded.writeCache (desc.Derives seeds) := by
  obtain ⟨sub, hsub, hwritten, -⟩ := desc.expandHelper_getPubKeys h
  rw [hwritten]
  exact PubkeyProvider.getPubKeys_adds _ hsub

end Descriptor

end

lemma DescriptorCache.Merges.adds {cache merged diff : DescriptorCache}
    {P : Nat × Nat → CPubKey → Prop} (h : cache.Merges merged diff)
    (hdiff : ∀ place key, diff.lookup place = some key → P place key) : cache.Adds merged P := by
  intro place key hkey
  rw [h.lookup] at hkey
  rcases or_eq_some_iff.1 hkey with hcache | ⟨-, hnew⟩
  · exact .inl hcache
  · exact .inr (hdiff place key hnew)

section

variable [PqhdKeys]

namespace DescriptorScriptPubKeyMan

/-- The manager with the cache, the range and the scripts of another one. -/
def regrown (manager other : DescriptorScriptPubKeyMan) : DescriptorScriptPubKeyMan :=
  { manager with
    walletDescriptor := { manager.walletDescriptor with
      cache := other.walletDescriptor.cache
      rangeStart := other.walletDescriptor.rangeStart
      rangeEnd := other.walletDescriptor.rangeEnd }
    mapScriptPubKeys := other.mapScriptPubKeys
    mapPubkeys := other.mapPubkeys
    maxCachedIndex := other.maxCachedIndex }

/-- The records of the cache are the cache. -/
def Mirrored (manager : DescriptorScriptPubKeyMan) (records : Records) : Prop :=
  ∀ place : Nat × Nat, records (.walletDescriptorPubkeyCache manager.getID place.1 place.2) =
    manager.walletDescriptor.cache.lookup place

/-- What the loop of a top-up makes of a manager and of the records. -/
structure Grows (seeds : SeedSource) (manager : DescriptorScriptPubKeyMan) (records : Records)
    (manager' : DescriptorScriptPubKeyMan) (records' : Records) : Prop where
  same : manager' = manager.regrown manager'
  kept : ∀ place key, manager.walletDescriptor.cache.lookup place = some key →
    manager'.walletDescriptor.cache.lookup place = some key
  adds : manager.walletDescriptor.cache.Adds manager'.walletDescriptor.cache
    (manager.walletDescriptor.descriptor.Derives seeds)
  frame : ∀ key, (∀ expr pos, key ≠ .walletDescriptorPubkeyCache manager.getID expr pos) →
    records' key = records key
  mirrored : manager.Mirrored records → manager'.Mirrored records'

variable {manager' : DescriptorScriptPubKeyMan} {records records' : Records}

namespace Grows

section

variable (h : Grows seeds manager records manager' records')
include h

lemma getID_eq : manager'.getID = manager.getID := by
  rw [h.same]
  rfl

lemma descriptor_eq :
    manager'.walletDescriptor.descriptor = manager.walletDescriptor.descriptor := by
  rw [h.same]
  rfl

end

lemma refl : Grows seeds manager records manager records where
  same := rfl
  kept := fun _ _ h => h
  adds := .refl _
  frame := fun _ _ => rfl
  mirrored := fun h => h

lemma trans {last : DescriptorScriptPubKeyMan} {records'' : Records}
    (hfirst : Grows seeds manager records manager' records')
    (hsecond : Grows seeds manager' records' last records'') :
    Grows seeds manager records last records'' where
  same := by
    have hlast := hsecond.same
    rw [hfirst.same] at hlast
    exact hlast
  kept := fun place key h => hsecond.kept place key (hfirst.kept place key h)
  adds := by
    have hadds := hsecond.adds
    rw [hfirst.descriptor_eq] at hadds
    exact hfirst.adds.trans hadds
  frame := by
    intro key hkey
    rw [hsecond.frame key (by rw [hfirst.getID_eq]; exact hkey), hfirst.frame key hkey]
  mirrored := fun h => hsecond.mirrored (hfirst.mirrored h)

end Grows

end DescriptorScriptPubKeyMan

end

section

variable {W V : Records → Prop} {R : Stop String → Session CWallet Records → Prop}

variable (key : DBKey) (value : key.Value)

lemma writeIC_working (h : ∀ records, W records → V (records.set key (some value))) :
    Triple (Working m d listeners W) (writeIC key value)
      (fun done => cond done (Working m d listeners V) (Working m d listeners W)) R := by
  apply Triple.update_working
  intro work records hwork hrecords
  rw [some_inj] at hrecords
  subst hrecords
  exact h work hwork

lemma writeIC_set : Triple (Working m d listeners W) (writeIC key value) (fun done => cond done
      (Working m d listeners fun records' => ∃ records, W records ∧
        records' = records.set key (some value))
      (Working m d listeners W)) R :=
  writeIC_working _ _ fun records hrecords => ⟨records, hrecords, rfl⟩

/-- The records after the items of a cache have been written. -/
def writtenItems (descId : Uint256) (items : List (Sigma fun _ : Nat × Nat => CPubKey))
    (records : Records) : Records :=
  items.foldl (fun records item =>
    records.set (.walletDescriptorPubkeyCache descId item.1.1 item.1.2) (some item.2)) records

lemma writtenItems_of_ne {descId : Uint256} {key : DBKey}
    (hkey : ∀ expr pos, key ≠ .walletDescriptorPubkeyCache descId expr pos)
    (items : List (Sigma fun _ : Nat × Nat => CPubKey)) :
    ∀ records : Records, writtenItems descId items records key = records key := by
  induction items with
  | nil => exact fun records => rfl
  | cons item items ih =>
    intro records
    exact (ih _).trans (Records.set_of_ne (hkey _ _) _)

lemma writtenItems_place (descId : Uint256) (place : Nat × Nat)
    (items : List (Sigma fun _ : Nat × Nat => CPubKey)) (hnodup : items.NodupKeys) :
    ∀ records : Records,
      writtenItems descId items records (.walletDescriptorPubkeyCache descId place.1 place.2) =
        (items.dlookup place).or (records (.walletDescriptorPubkeyCache descId place.1
          place.2)) := by
  induction items with
  | nil => exact fun records => rfl
  | cons item items ih =>
    intro records
    obtain ⟨other, key⟩ := item
    obtain ⟨habsent, hnodup'⟩ := List.nodupKeys_cons.1 hnodup
    have hstep :=
      ih hnodup' (records.set (.walletDescriptorPubkeyCache descId other.1 other.2) (some key))
    apply hstep.trans
    by_cases heq : other = place
    · subst heq
      have hnone : items.dlookup other = none := List.dlookup_eq_none.2 habsent
      rw [hnone, List.dlookup_cons_eq, Records.set_same]
      rfl
    · rw [List.dlookup_cons_ne _ _ (Ne.symm heq), Records.set_of_ne]
      intro hkeys
      rw [DBKey.walletDescriptorPubkeyCache.injEq] at hkeys
      exact heq (Prod.ext hkeys.2.1.symm hkeys.2.2.symm)

namespace DescriptorScriptPubKeyMan

variable (descId : Uint256) (items : List (Sigma fun _ : Nat × Nat => CPubKey))

lemma writeDescriptorCacheItems_working :
    ∀ W : Records → Prop, Triple (Working m d listeners W) (writeDescriptorCacheItems descId items)
      (fun done => cond done (Working m d listeners fun records' =>
          ∃ records, W records ∧ records' = writtenItems descId items records)
        (Working m d listeners fun _ => True)) R := by
  induction items with
  | nil =>
    intro W
    exact .pure fun s hs => hs.weaken fun records hrecords => ⟨records, hrecords, rfl⟩
  | cons item items ih =>
    intro W
    refine .branch (writeIC_set _ _) ?_ ?_
    · refine (ih _).weaken ?_ fun _ _ h => h
      rintro (_ | _) s hs
      · exact hs
      · apply hs.weaken
        rintro records' ⟨_, ⟨records, hrecords, rfl⟩, rfl⟩
        exact ⟨records, hrecords, rfl⟩
    · exact .pure fun s hs => hs.weaken fun _ _ => trivial

end DescriptorScriptPubKeyMan

end

section

variable [Crypto] [PqhdKeys]

namespace DescriptorScriptPubKeyMan

/-- The end of a function that gives a manager or nothing. -/
def Outcome (found : DescriptorScriptPubKeyMan → Session CWallet Records → Prop)
    (nothing : Session CWallet Records → Prop) :
    Option DescriptorScriptPubKeyMan → Session CWallet Records → Prop
  | none => nothing
  | some manager => found manager

/-- The records came from those of `W`, while the manager grew from `manager`. -/
def GrownFrom (seeds : SeedSource) (manager : DescriptorScriptPubKeyMan) (W : Records → Prop)
    (manager' : DescriptorScriptPubKeyMan) (records' : Records) : Prop :=
  ∃ records, W records ∧ Grows seeds manager records manager' records'

lemma expandPosition_derives {desc : WalletDescriptor} {i : Int} {scripts : List Bytes}
    {out : FlatSigningProvider} {cache : DescriptorCache}
    (h : expandPosition desc seeds i = some (scripts, out, cache)) :
    ∀ place key, cache.lookup place = some key → desc.descriptor.Derives seeds place key := by
  intro place key hkey
  unfold expandPosition at h
  split at h
  · obtain ⟨-, -, rfl⟩ := h
    cases hkey
  · simp only [map_eq_some_iff, Prod.mk.injEq] at h
    obtain ⟨expanded, hexpanded, -, -, rfl⟩ := h
    rcases Descriptor.expandHelper_adds _ hexpanded place key hkey with hempty | hderives
    · cases hempty
    · exact hderives

omit [Crypto] in
lemma grows_position {records : Records} {i : Int} {cache diff : DescriptorCache}
    {scripts : Store Bytes Int} {pubkeys : Store CPubKey Int}
    (hmerges : manager.walletDescriptor.cache.Merges cache diff)
    (hdiff : ∀ place key, diff.lookup place = some key → manager.walletDescriptor.descriptor.Derives
      seeds place key) :
    Grows seeds manager records { manager with
        walletDescriptor := { manager.walletDescriptor with cache := cache }
        mapScriptPubKeys := scripts
        mapPubkeys := pubkeys
        maxCachedIndex := i }
      (writtenItems manager.getID diff.entries records) where
  same := rfl
  kept := fun place key hkey => hmerges.kept hkey
  adds := hmerges.adds hdiff
  frame := fun key hkey => writtenItems_of_ne hkey _ _
  mirrored := by
    intro hmirrored place
    change writtenItems manager.getID diff.entries records
      (.walletDescriptorPubkeyCache manager.getID place.1 place.2) = cache.lookup place
    rw [writtenItems_place _ _ _ diff.nodupKeys, hmirrored place, hmerges.lookup]
    cases hnew : diff.lookup place with
    | none =>
      have hnone : diff.entries.dlookup place = none := hnew
      rw [hnone, none_or, or_none]
    | some key =>
      have hsome : diff.entries.dlookup place = some key := hnew
      rw [hsome, hmerges.fresh place key hnew, some_or, none_or]

variable (manager : DescriptorScriptPubKeyMan)

lemma topUpPosition_working (seeds : SeedSource) (i : Int) (W : Records → Prop) :
    Triple (Working m d listeners W) (topUpPosition manager seeds i)
      (Outcome (fun manager' s => manager'.maxCachedIndex = i ∧
          Working m d listeners (GrownFrom seeds manager W manager') s)
        (Working m d listeners fun _ => True))
      (fun e s => e ≠ .terminated ∧ Working m d listeners (fun _ => True) s) := by
  unfold topUpPosition
  cases hexpand : expandPosition manager.walletDescriptor seeds i with
  | none => exact .pure fun s hs => hs.weaken fun _ _ => trivial
  | some found =>
    obtain ⟨scripts, out, tempCache⟩ := found
    dsimp only
    cases hmerge : manager.walletDescriptor.cache.mergeAndDiff tempCache with
    | none => exact .throw fun s hs => ⟨nofun, hs.weaken fun _ _ => trivial⟩
    | some merged =>
      obtain ⟨hmerges, hdiff, -⟩ :=
        DescriptorCache.mergeAndDiff_spec hmerge (expandPosition_derives hexpand)
      refine .check (writeDescriptorCacheItems_working _ _ W) ?_ (.throw_bind fun s hs =>
        ⟨nofun, hs⟩)
      refine .pure fun s hs => ⟨rfl, hs.weaken ?_⟩
      rintro records' ⟨records, hrecords, rfl⟩
      exact ⟨records, hrecords, grows_position hmerges hdiff⟩

lemma topUpLoop_working (seeds : SeedSource) (count : Nat) :
    ∀ (i : Int) (manager : DescriptorScriptPubKeyMan) (W : Records → Prop),
      Triple (Working m d listeners W) (topUpLoop seeds count i manager)
        (Outcome (fun manager' s => manager'.maxCachedIndex =
              (if count = 0 then manager.maxCachedIndex else i + count - 1) ∧
            Working m d listeners (GrownFrom seeds manager W manager') s)
          (Working m d listeners fun _ => True))
        (fun e s => e ≠ .terminated ∧ Working m d listeners (fun _ => True) s) := by
  induction count with
  | zero =>
    intro i manager W
    exact .pure fun s hs => ⟨rfl, hs.weaken fun records hrecords => ⟨records, hrecords, .refl⟩⟩
  | succ count ih =>
    intro i manager W
    refine .bind (topUpPosition_working manager seeds i W) fun result => ?_
    cases result with
    | none => exact .pure fun s hs => hs
    | some next =>
      rintro s ⟨hnext, hs⟩
      refine ((ih (i + 1) next _).weaken ?_ fun _ _ hs => hs) s hs
      rintro (_ | manager') t ht
      · exact ht
      · obtain ⟨hindex, ht⟩ := ht
        refine ⟨?_, ht.weaken ?_⟩
        · rw [hnext] at hindex
          rw [if_neg (Nat.succ_ne_zero count)]
          split at hindex <;> omega
        · rintro records' ⟨between, ⟨records, hrecords, hfirst⟩, hsecond⟩
          exact ⟨records, hrecords, hfirst.trans hsecond⟩

/-- What `RegisterMutationRollback` adds to the listeners of a transaction. -/
def rollbacks (manager : DescriptorScriptPubKeyMan) : List (Listener CWallet) :=
  if manager.mutationBatch then [] else [manager.rollbackListener]

/-- The open transaction, whether or not the manager can be rolled back in it. -/
def Opened (m : CWallet) (d : Records) (listeners : List (Listener CWallet))
    (manager : DescriptorScriptPubKeyMan) (s : Session CWallet Records) : Prop :=
  Working m d listeners (fun _ => True) s ∨ Working m d (listeners ++ manager.rollbacks) (fun _ =>
    True) s

omit [Crypto] [PqhdKeys] in
lemma registerMutationRollback_working {R : Stop String → Session CWallet Records → Prop}
    (W : Records → Prop) :
    Triple (Working m d listeners W) manager.registerMutationRollback
      (fun manager' s => manager' = { manager with mutationBatch := true } ∧
        Working m d (listeners ++ manager.rollbacks) W s) R := by
  refine .check (.hasActiveTxn_open fun s hs => hs.isSome_txn) ?_ fun _ h => h.elim
  by_cases hbatch : manager.mutationBatch = true
  · rw [if_pos hbatch]
    apply Triple.pure
    intro s hs
    refine ⟨by rw [← hbatch], ?_⟩
    simpa [rollbacks, hbatch] using hs
  · rw [if_neg hbatch]
    refine .bind .register_working fun _ => ?_
    apply Triple.pure
    simp [rollbacks, hbatch]

/-- The records after a top-up: those of the growth, and the record of the manager. -/
def ToppedUp (seeds : SeedSource) (manager : DescriptorScriptPubKeyMan) (W : Records → Prop)
    (manager' : DescriptorScriptPubKeyMan) (records' : Records) : Prop :=
  ∃ records, GrownFrom seeds manager W manager' records ∧
    records' = records.set (.walletDescriptor manager'.getID) (some manager'.record)

omit [Crypto] in
lemma GrownFrom.of_start {manager grown : DescriptorScriptPubKeyMan} {W : Records → Prop}
    {records' : Records} (h : GrownFrom seeds manager.topUpStart W grown records')
    (rangeEnd : Int) :
    GrownFrom seeds manager W { grown with
      walletDescriptor := { grown.walletDescriptor with rangeEnd := rangeEnd } } records' := by
  obtain ⟨records, hrecords, hgrown⟩ := h
  refine ⟨records, hrecords, ?_, hgrown.kept, hgrown.adds, hgrown.frame, hgrown.mirrored⟩
  rw [hgrown.same]
  rfl

/-- The positions the manager knows are not beyond the end. -/
def KnownBefore (manager : DescriptorScriptPubKeyMan) (rangeEnd : Int) : Prop :=
  manager.walletDescriptor.descriptor.isRange = true ∧
    max manager.walletDescriptor.rangeStart (manager.maxCachedIndex + 1) ≤ rangeEnd

lemma topUpRange_working (seeds : SeedSource) (newRangeEnd : Int) (W : Records → Prop) :
    Triple (Working m d listeners W) (manager.topUpRange seeds newRangeEnd)
      (Outcome (fun manager' => Working m d listeners (ToppedUp seeds manager W manager'))
        (Working m d listeners fun _ => True))
      (fun e s => (manager.KnownBefore newRangeEnd → e ≠ .terminated) ∧
        Working m d listeners (fun _ => True) s) := by
  refine .bind ((topUpLoop_working seeds _ _ _ W).weaken (fun _ _ h => h)
    fun _ _ ⟨hthrown, hs⟩ => ⟨fun _ => hthrown, hs⟩) fun result => ?_
  cases result with
  | none => exact .pure fun s hs => hs
  | some grown =>
    rintro s ⟨hindex, hs⟩
    refine (Triple.check (writeIC_working (V := ToppedUp seeds manager W { grown with
      walletDescriptor := { grown.walletDescriptor with rangeEnd := newRangeEnd } }) _ _
      fun records hrecords => ⟨records, hrecords.of_start newRangeEnd, rfl⟩) ?_ ?_) s hs
    · refine .ite (fun hends => .throw_bind fun s hs => ⟨?_, hs.weaken fun _ _ => trivial⟩)
        fun _ => .pure fun s hs => hs
      rintro ⟨hrange, hknown⟩
      simp only [topUpStart, hrange, if_true] at hindex
      apply absurd _ hends
      change newRangeEnd - 1 = grown.maxCachedIndex
      split at hindex <;> omega
    · exact .throw_bind fun s hs => ⟨fun _ => nofun, hs.weaken fun _ _ => trivial⟩

variable (size : Nat) (expandRange : Bool)

/-- A top-up throws exceptions at most, if the positions it knows are not beyond the end it aims at.
-/
lemma topUpWithDB_working [Aes] (W : Records → Prop) :
    Triple (Working m d listeners W) (manager.topUpWithDB size expandRange) (Outcome
        (fun manager' => Working m d (listeners ++ manager.rollbacks)
          (ToppedUp m.getPQHDSeed { manager with mutationBatch := true } W manager'))
        (Opened m d listeners manager))
      (fun e s => ((∀ target, 0 ≤ target →
        manager.KnownBefore (newRangeEnd manager.walletDescriptor target)) →
          e ≠ .terminated) ∧ Opened m d listeners manager s) := by
  have hclosed : ∀ s, Working m d listeners W s → Opened m d listeners manager s :=
    fun s hs => .inl (hs.weaken fun _ _ => trivial)
  refine .check (.hasActiveTxn_open fun s hs => hs.isSome_txn) ?_ fun _ h => h.elim
  refine .ite (fun _ => .pure hclosed) fun _ => ?_
  refine .ite (fun _ => .pure hclosed) fun htarget => ?_
  refine .bind (registerMutationRollback_working manager W) fun registered => ?_
  refine .bind .get fun session => ?_
  rintro s ⟨rfl, rfl, hworking⟩
  rw [hworking.memory]
  refine ((topUpRange_working _ m.getPQHDSeed _ W).weaken ?_ ?_) session hworking
  · rintro (_ | manager') t ht
    · exact .inr ht
    · exact ht
  · rintro e t ⟨hthrown, ht⟩
    refine ⟨fun hknown => hthrown (hknown _ ?_), .inr ht⟩
    by_contra hneg
    exact htarget (by simp [not_le.1 hneg])

end DescriptorScriptPubKeyMan

end

namespace DescriptorScriptPubKeyMan

lemma rollbacks_of_settled (hsettled : manager.mutationBatch = false) :
    manager.rollbacks = [manager.rollbackListener] := by
  simp [rollbacks, hsettled]

end DescriptorScriptPubKeyMan

end Tidecoin
