import Tidecoin.Wallet.Policy

/-!
A change of the policy is all or nothing. While its transaction is open the memory already holds the
new policy, the managers that were created for it and the changed flags. `SyncProgress` says what
the listeners make of that memory: a commit publishes the new bindings, an abort takes the managers
out again and restores the flags.
-/

namespace Tidecoin

open Lib List AList Option Records DescriptorScriptPubKeyMan

namespace CWallet

section

variable (wallet : CWallet) (id : Uint256)

lemma entries_removeScriptPubKeyMan : (wallet.removeScriptPubKeyMan id).spkManagers.entries =
      wallet.spkManagers.entries.filter fun entry => entry.1 ≠ id := by
  unfold removeScriptPubKeyMan
  split
  · exact kerase_eq_filter id wallet.spkManagers.nodupKeys
  · next habsent =>
    refine (filter_eq_self.2 ?_).symm
    intro entry hentry
    have hne : entry.1 ≠ id := fun heq =>
      habsent (heq ▸ (mem_keys.2 (mem_keys_of_mem hentry)))
    simpa using hne

lemma active_removeScriptPubKeyMan {wallet : CWallet} {id : Uint256}
    (hinactive : ∀ internal type, wallet.active.managers internal type ≠ some id) :
    (wallet.removeScriptPubKeyMan id).active = wallet.active := by
  have hfilter : ∀ internal type, (wallet.active.managers internal type).filter
      (fun active => active ≠ id) = wallet.active.managers internal type := by
    intro internal type
    have hne := hinactive internal type
    cases hactive : wallet.active.managers internal type with
    | none => rfl
    | some active =>
      rw [hactive] at hne
      have hactiveNe : active ≠ id := fun heq => hne (congrArg some heq)
      simp [hactiveNe]
  unfold removeScriptPubKeyMan
  split
  · apply ActiveMaps.ext_managers
    intro kind type
    cases kind with
    | false => exact hfilter false type
    | true => exact hfilter true type
  · rfl

lemma removeScriptPubKeyMan_rest : wallet.removeScriptPubKeyMan id = { wallet with
      spkManagers := (wallet.removeScriptPubKeyMan id).spkManagers
      active := (wallet.removeScriptPubKeyMan id).active } := by
  unfold removeScriptPubKeyMan
  split <;> rfl

lemma removeScriptPubKeyMan_modifyManager
    (f : DescriptorScriptPubKeyMan → DescriptorScriptPubKeyMan) :
    (wallet.modifyManager id f).removeScriptPubKeyMan id = wallet.removeScriptPubKeyMan id := by
  cases hlookup : wallet.spkManagers.lookup id with
  | none =>
    have hsame : wallet.modifyManager id f = wallet := by
      rw [modifyManager, hlookup]
      rfl
    rw [hsame]
  | some manager =>
    have hmem : id ∈ wallet.spkManagers := lookup_isSome.1 (by rw [hlookup]; rfl)
    have hmem' : id ∈ (wallet.modifyManager id f).spkManagers :=
      lookup_isSome.1 (by rw [lookup_modifyManager hlookup]; rfl)
    have herase :
        (wallet.modifyManager id f).spkManagers.erase id = wallet.spkManagers.erase id := by
      rw [modifyManager_eq hlookup]
      exact erase_replace (ν := fun _ => DescriptorScriptPubKeyMan) id (f manager)
    unfold removeScriptPubKeyMan
    rw [if_pos hmem, if_pos hmem', herase]
    rfl

end

variable {wallet : CWallet} {id : Uint256}
  {f : DescriptorScriptPubKeyMan → DescriptorScriptPubKeyMan}

lemma modifyManager_of_notMem (hnew : id ∉ wallet.spkManagers) :
    wallet.modifyManager id f = wallet := by
  rw [modifyManager, lookup_eq_none.2 hnew]
  rfl

lemma lookup_modifyManager_of_ne {other : Uint256} (hne : other ≠ id) :
    (wallet.modifyManager id f).spkManagers.lookup other = wallet.spkManagers.lookup other := by
  cases hlookup : wallet.spkManagers.lookup id with
  | none => rw [modifyManager, hlookup]; rfl
  | some manager =>
    rw [modifyManager_eq hlookup]
    exact lookup_replace_of_ne hne _

lemma mem_modifyManager {other : Uint256} :
    other ∈ (wallet.modifyManager id f).spkManagers ↔ other ∈ wallet.spkManagers := by
  cases hlookup : wallet.spkManagers.lookup id with
  | none => rw [modifyManager, hlookup]; rfl
  | some manager =>
    rw [modifyManager_eq hlookup]
    exact mem_replace

end CWallet

namespace ActiveOp

variable (op : ActiveOp) (ops : List ActiveOp) (wallet : CWallet)

section

variable (id : Uint256) (f : DescriptorScriptPubKeyMan → DescriptorScriptPubKeyMan)

/-- The call reads the managers only for whether they are there, and changes the active maps only.
-/
theorem publish_modifyManager :
    (op.publish wallet).modifyManager id f = op.publish (wallet.modifyManager id f) := by
  cases op with
  | add other type internal =>
    simp only [publish, CWallet.activated, CWallet.loadActiveScriptPubKeyMan,
      CWallet.mem_modifyManager]
    split <;> rfl
  | deactivate other type internal => rfl

lemma publishAll_modifyManager :
    (publishAll ops wallet).modifyManager id f = publishAll ops (wallet.modifyManager id f) := by
  induction ops generalizing wallet with
  | nil => rfl
  | cons op ops ih =>
    apply (ih (op.publish wallet)).trans
    rw [publish_modifyManager]
    rfl

end

lemma publishAll_snapshot (snapshot : Option UInt64) :
    { publishAll ops wallet with walletFlagsTxnSnapshot := snapshot } =
      publishAll ops { wallet with walletFlagsTxnSnapshot := snapshot } := by
  induction ops generalizing wallet with
  | nil => rfl
  | cons op ops ih =>
    refine (ih (op.publish wallet)).trans (congrArg (publishAll ops) ?_)
    cases op with
    | add id type internal =>
      simp only [publish, CWallet.activated, CWallet.loadActiveScriptPubKeyMan]
      split <;> rfl
    | deactivate id type internal => rfl

lemma publish_rest : ∃ active, op.publish wallet = { wallet with active := active } := by
  cases op with
  | add id type internal =>
    simp only [publish, CWallet.activated, CWallet.loadActiveScriptPubKeyMan]
    split
    · exact ⟨_, rfl⟩
    · exact ⟨wallet.active, rfl⟩
  | deactivate id type internal => exact ⟨_, rfl⟩

lemma publishAll_rest : ∃ active, publishAll ops wallet = { wallet with active := active } := by
  induction ops generalizing wallet with
  | nil => exact ⟨wallet.active, rfl⟩
  | cons op ops ih =>
    obtain ⟨first, hfirst⟩ := op.publish_rest wallet
    obtain ⟨last, hlast⟩ := ih (op.publish wallet)
    refine ⟨last, hlast.trans ?_⟩
    rw [hfirst]

end ActiveOp

section

variable [Crypto]

section

variable (manager : DescriptorScriptPubKeyMan) (pubkey : CPubKey)

/-- The record of a key of a manager. -/
def DescriptorScriptPubKeyMan.keyRecord : Option Bytes :=
  ((manager.mapKeys.lookup pubkey.getID).filter fun key => key.pubkey = pubkey).map CKey.keydata

/-- The record of an encrypted key of a manager. -/
def DescriptorScriptPubKeyMan.cryptedKeyRecord : Option Bytes :=
  ((manager.mapCryptedKeys.lookup pubkey.getID).filter fun entry => entry.1 = pubkey).map Prod.snd

end

omit [Crypto] in
/-- The record of a seed that is not encrypted. -/
def PQHDSeedState.record (state : PQHDSeedState) : Option PQHDSeed :=
  if state.encrypted then none else some ⟨state.createTime, state.seed⟩

omit [Crypto] in
/-- The record of an encrypted seed. -/
def PQHDSeedState.cryptedRecord (state : PQHDSeedState) : Option PQHDCryptedSeed :=
  if state.encrypted then some ⟨state.createTime, state.cryptedSeed⟩ else none

/-- The records a wallet would have, from its memory alone. -/
def CWallet.image (wallet : CWallet) : Records
  | .activeSpk internal type => wallet.active.managers internal type
  | .walletDescriptor id =>
    (wallet.spkManagers.lookup id).map DescriptorScriptPubKeyMan.record
  | .walletDescriptorPubkeyCache id expr pos =>
    (wallet.spkManagers.lookup id).bind fun manager =>
      manager.walletDescriptor.cache.lookup (expr, pos)
  | .walletDescriptorKey id pubkey =>
    (wallet.spkManagers.lookup id).bind fun manager => manager.keyRecord pubkey
  | .walletDescriptorCKey id pubkey =>
    (wallet.spkManagers.lookup id).bind fun manager => manager.cryptedKeyRecord pubkey
  | .masterKey nID => wallet.mapMasterKeys.lookup nID
  | .pqhdSeed seedId => (wallet.pqhdSeeds.lookup seedId).bind PQHDSeedState.record
  | .pqhdCryptedSeed seedId => (wallet.pqhdSeeds.lookup seedId).bind PQHDSeedState.cryptedRecord
  | .pqhdPolicy => wallet.pqhdPolicy
  | .flags => some wallet.walletFlags

omit [Crypto] in
/-- The kinds of records that are not taken as they are when they are loaded: a missing value has a
default, and an active binding can displace another. -/
def DBKey.interpreted : DBKey → Bool
  | .activeSpk _ _ | .pqhdPolicy | .flags => true
  | _ => false

/-- The other records are those of the memory. -/
def CWallet.Stored (wallet : CWallet) (records : Records) : Prop :=
  ∀ key : DBKey, key.interpreted = false → records key = wallet.image key

omit [Crypto] in
/-- The policy a load of the records gives. -/
def Records.loadedPolicy (records : Records) : Except String (Option PQHDPolicy) :=
  (records .pqhdPolicy).elim (.ok none) fun policy => (loadPQHDPolicy policy).map some

/-- The memory is what a load of the records gives: the flags, the policy, the managers with their
descriptors, caches and keys, the seeds, the master keys and the active bindings. -/
structure CWallet.Persisted (wallet : CWallet) (records : Records) : Prop where
  stored : wallet.Stored records
  flags : (records .flags).getD 0 = wallet.walletFlags
  policy : records.loadedPolicy = .ok wallet.pqhdPolicy
  active : wallet.reloadActive records = some wallet.active

omit [Crypto] in
/-- A wallet between transactions: the managers stand under their ids, and the active ones are among
them. -/
structure CWallet.Sane (wallet : CWallet) : Prop where
  keyed : ∀ id manager, wallet.spkManagers.lookup id = some manager →
    manager.getID = id ∧ manager.mutationBatch = false
  managed : ∀ internal type id, wallet.active.managers internal type = some id →
    id ∈ wallet.spkManagers
  snapshot : wallet.walletFlagsTxnSnapshot = none

end

namespace PQHDPolicy

/-- The seed and the scheme of a kind of addresses. -/
def seedOf (policy : PQHDPolicy) (internal : Bool) : Uint256 :=
  if internal then policy.defaultChangeSeedId else policy.defaultSeedId

def schemeOf (policy : PQHDPolicy) (internal : Bool) : UInt8 :=
  if internal then policy.defaultChangeScheme else policy.defaultReceiveScheme

/-- The descriptor of a kind and type. -/
def descriptorOf (policy : PQHDPolicy) (target : Bool × OutputType) : Option Descriptor :=
  policyDescriptor (policy.seedOf target.1) (policy.schemeOf target.1) target.2 target.1

end PQHDPolicy

lemma PQHDPolicy.matchesPath_descriptorOf {policy : PQHDPolicy} {target : Bool × OutputType}
    {desc : Descriptor} (hdesc : policy.descriptorOf target = some desc) {type : OutputType}
    {internal : Bool}
    {seedId : Uint256} {schemePrefix : UInt8}
    (hmatch : matchesPath desc type internal seedId schemePrefix) : target = (internal, type) := by
  obtain ⟨kind, other⟩ := target
  simp only [matchesPath, Bool.and_eq_true, decide_eq_true_eq] at hmatch
  obtain ⟨htype, hpath⟩ := hmatch
  have hsplit : desc.getOutputType = some other ∧ desc.pubkeyArgs = [.pqhd 0 (policy.seedOf kind)
      ((policyPath (policy.schemeOf kind) kind).map fun component => component ||| Pqhd.hardened)
        .hardened
      (policy.schemeOf kind)] := by
    cases other <;>
      simp only [descriptorOf, policyDescriptor, some_inj, reduceCtorEq] at hdesc <;> subst
        hdesc <;>
      exact ⟨rfl, rfl⟩
  rw [hsplit.1, some_inj] at htype
  have hinternal : kind = internal := by
    rw [Descriptor.getPQHDKeyPathInfo, hsplit.2] at hpath
    simp [PubkeyProvider.getPQHDKeyPathInfo, policyPath] at hpath
    -- The last component is the kind.
    obtain ⟨-, -, -, -, -, hkind⟩ := hpath
    revert hkind
    cases kind <;> cases internal <;> decide
  rw [htype, hinternal]

section

variable [DescriptorHash]

variable (wallet : CWallet) (params : Params) (policy : PQHDPolicy)

/-- The manager a policy asks for: one that is there, or the one that can be created. -/
def CWallet.desiredManager (target : Bool × OutputType) : Option Uint256 :=
  (wallet.findPQHDDescriptorForPath target.2 target.1 (policy.seedOf target.1)
    (policy.schemeOf target.1)).or
    (if (schemeFromPrefix (policy.schemeOf target.1)).any fun scheme =>
        !ineligible params wallet.targetHeightForOutputs scheme target.2 then
      (policy.descriptorOf target).map DescriptorHash.id
    else none)

/-- The manager a policy binds anew. -/
def CWallet.binding (target : Bool × OutputType) : Option Uint256 :=
  (wallet.desiredManager params policy target).filter fun id =>
    wallet.getScriptPubKeyMan target.2 target.1 ≠ some id

/-- The calls that bind the managers of the targets. -/
def CWallet.planned (targets : List (Bool × OutputType)) : List ActiveOp :=
  targets.filterMap fun target =>
    (wallet.binding params policy target).map fun id => .add id target.2 target.1

lemma CWallet.planned_append (targets others : List (Bool × OutputType)) :
    wallet.planned params policy (targets ++ others) =
      wallet.planned params policy targets ++ wallet.planned params policy others :=
  filterMap_append

end

/-- The managers that were created, the latest first. -/
abbrev Created := List (Sigma fun _ : Uint256 => DescriptorScriptPubKeyMan)

/-- The memory after a commit has ended the transaction for the managers it created. -/
def CWallet.settled (created : Created) (wallet : CWallet) : CWallet :=
  created.foldr
    (fun entry wallet => wallet.modifyManager entry.1 fun current =>
      { current with mutationBatch := false })
    { wallet with
      walletFlagsTxnSnapshot := if created.isEmpty then wallet.walletFlagsTxnSnapshot else none }

/-- The memory after an abort has taken out what was created. -/
def CWallet.withoutCreated (created : Created) (wallet : CWallet) : CWallet :=
  created.foldr (fun entry wallet => wallet.removeScriptPubKeyMan entry.1)
    (if created.isEmpty then wallet else flagsListener.onAbort wallet)

lemma CWallet.foldr_removeScriptPubKeyMan (created : Created) {wallet : CWallet}
    (hinactive : ∀ entry ∈ created, ∀ internal type, wallet.active.managers internal type ≠ some
      entry.1) :
    ∃ managers : AList fun _ : Uint256 => DescriptorScriptPubKeyMan,
      created.foldr (fun entry wallet => wallet.removeScriptPubKeyMan entry.1) wallet =
        { wallet with spkManagers := managers } ∧
      managers.entries = wallet.spkManagers.entries.filter fun entry => entry.1 ∉ created.keys := by
  induction created with
  | nil => exact ⟨wallet.spkManagers, rfl, by simp⟩
  | cons entry created ih =>
    obtain ⟨managers, hwallet, hentries⟩ :=
      ih (forall_mem_cons.1 hinactive).2
    rw [foldr_cons, hwallet]
    let reduced : CWallet := { wallet with spkManagers := managers }
    have hactive : (reduced.removeScriptPubKeyMan entry.1).active = wallet.active :=
      active_removeScriptPubKeyMan (hinactive entry mem_cons_self)
    refine ⟨(reduced.removeScriptPubKeyMan entry.1).spkManagers, ?_, ?_⟩
    · apply (removeScriptPubKeyMan_rest reduced entry.1).trans
      rw [hactive]
    · rw [entries_removeScriptPubKeyMan, hentries, List.filter_filter]
      apply filter_congr
      intro other _
      rw [Bool.eq_iff_iff, Bool.and_eq_true, decide_eq_true_iff, decide_eq_true_iff,
        decide_eq_true_iff,
        keys_cons, mem_cons, not_or]

/-- The memory once a manager has been created. -/
def CWallet.withCreated (wallet : CWallet) (id : Uint256) (manager : DescriptorScriptPubKeyMan) :
    CWallet :=
  { wallet with
    spkManagers := wallet.spkManagers.insert id manager
    walletFlags := wallet.walletFlags &&& ~~~walletFlagBlankWallet
    walletFlagsTxnSnapshot := some (wallet.walletFlagsTxnSnapshot.getD wallet.walletFlags) }

/-- A manager without keys and cached keys. -/
structure DescriptorScriptPubKeyMan.Empty (manager : DescriptorScriptPubKeyMan) : Prop where
  cache : manager.walletDescriptor.cache = ∅
  keys : manager.mapKeys = ∅
  cryptedKeys : manager.mapCryptedKeys = ∅

/-- The records the creation of a manager leaves alone. -/
def DBKey.KeptBy (id : Uint256) : DBKey → Prop
  | .flags => False
  | .walletDescriptor other | .walletDescriptorPubkeyCache other _ _ => other ≠ id
  | _ => True

section

variable {seeds : SeedSource} {new grown : DescriptorScriptPubKeyMan} {key : DBKey}
  {wallet : CWallet}
  {records written : Records}

lemma DescriptorScriptPubKeyMan.Grows.frame_created [PqhdKeys]
    (hgrows : Grows seeds { new with mutationBatch := true }
      (records.set (.walletDescriptor new.getID) (some new.record)) grown written)
      (flags : Option UInt64)
    (hkept : key.KeptBy new.getID) :
    ((written.set (.walletDescriptor new.getID) (some grown.record)).set .flags flags) key =
      records key := by
  have hflags : key ≠ .flags := by
    rintro rfl
    exact hkept
  have hdescriptor : key ≠ .walletDescriptor new.getID := by
    rintro rfl
    exact hkept rfl
  have hcache : ∀ expr pos, key ≠ .walletDescriptorPubkeyCache new.getID expr pos := by
    rintro expr pos rfl
    exact hkept rfl
  rw [set_of_ne hflags, set_of_ne hdescriptor, hgrows.frame key hcache, set_of_ne hdescriptor]

variable [Crypto]

lemma CWallet.image_withCreated (hnew : new.getID ∉ wallet.spkManagers) (hkeys : grown.mapKeys = ∅)
    (hcrypted : grown.mapCryptedKeys = ∅) (hkept : key.KeptBy new.getID)
    (hkey : key.interpreted = false) :
    (wallet.withCreated new.getID grown).image key = wallet.image key := by
  have hnone : wallet.spkManagers.lookup new.getID = none := lookup_eq_none.2 hnew
  have hsame : (wallet.withCreated new.getID grown).spkManagers.lookup new.getID = some grown :=
    lookup_insert _
  have hother : ∀ id, id ≠ new.getID → (wallet.withCreated new.getID grown).spkManagers.lookup id =
      wallet.spkManagers.lookup id := fun id hne => lookup_insert_ne hne
  cases key with
  | activeSpk | pqhdPolicy | flags => cases hkey
  | masterKey | pqhdSeed | pqhdCryptedSeed => rfl
  | walletDescriptor id | walletDescriptorPubkeyCache id => rw [image, image, hother id hkept]
  | walletDescriptorKey id =>
    by_cases heq : id = new.getID
    · rw [heq, image, image, hnone, hsame, bind_none, bind_some, keyRecord, hkeys, lookup_empty]
      rfl
    · rw [image, image, hother id heq]
  | walletDescriptorCKey id =>
    by_cases heq : id = new.getID
    · rw [heq, image, image, hnone, hsame, bind_none, bind_some, cryptedKeyRecord, hcrypted,
        lookup_empty]
      rfl
    · rw [image, image, hother id heq]

lemma CWallet.Stored.withCreated [PqhdKeys] (hstored : wallet.Stored records)
    (hnew : new.getID ∉ wallet.spkManagers) (hempty : new.Empty)
    (hgrows : Grows seeds { new with mutationBatch := true }
      (records.set (.walletDescriptor new.getID) (some new.record)) grown written)
      (flags : Option UInt64) :
    (wallet.withCreated new.getID grown).Stored
      ((written.set (.walletDescriptor new.getID) (some grown.record)).set .flags flags) := by
  have hsame : (wallet.withCreated new.getID grown).spkManagers.lookup new.getID = some grown :=
    lookup_insert _
  intro key hkey
  by_cases hkept : key.KeptBy new.getID
  · rw [hgrows.frame_created flags hkept, hstored key hkey]
    rw [image_withCreated hnew (hgrows.same ▸ hempty.keys) (hgrows.same ▸ hempty.cryptedKeys)
      hkept hkey]
  cases key with
  | walletDescriptor id =>
    obtain rfl := not_not.1 hkept
    rw [set_of_ne (by simp), set_same, image, hsame]
    rfl
  | walletDescriptorPubkeyCache id expr pos =>
    obtain rfl := not_not.1 hkept
    have hmirrored : Mirrored { new with mutationBatch := true }
        (records.set (.walletDescriptor new.getID) (some new.record)) := by
      intro place
      change records.set (.walletDescriptor new.getID) (some new.record)
        (.walletDescriptorPubkeyCache new.getID place.1 place.2) =
          new.walletDescriptor.cache.lookup place
      rw [set_of_ne (by simp), hstored _ rfl, image, lookup_eq_none.2 hnew, hempty.cache,
        lookup_empty]
      rfl
    have hid : grown.getID = new.getID := hgrows.getID_eq
    have hgrown := hgrows.mirrored hmirrored (expr, pos)
    rw [hid] at hgrown
    rw [set_of_ne (by simp), set_of_ne (by simp), hgrown, image, hsame]
    rfl
  | flags => cases hkey
  | _ => exact absurd trivial hkept

end

/-- The records of the seeds and of the policy. -/
def DBKey.ofSeeds : DBKey → Bool
  | .pqhdSeed _ | .pqhdCryptedSeed _ | .pqhdPolicy => true
  | _ => false

variable [Crypto] [DescriptorHash]

/-- How far the loop over the targets has come, between the memory and the records it started with
and those it has now. For the targets in `seen` managers may have been created, and those in `done`
are bound. -/
structure SyncProgress (params : Params) (policy : PQHDPolicy) (base : CWallet) (start : Records)
    (seen done : List (Bool × OutputType)) (created : Created) (wallet : CWallet)
    (listeners : List (Listener CWallet)) (work : Records) : Prop where
  rest : ∃ managers flags snapshot, wallet = { base with
    spkManagers := managers, walletFlags := flags, walletFlagsTxnSnapshot := snapshot }
  entries : wallet.spkManagers.entries = created ++ base.spkManagers.entries
  policies : ∀ entry ∈ created, entry.2.getID = entry.1 ∧
    ∃ target ∈ seen, policy.descriptorOf target = some entry.2.walletDescriptor.descriptor
  flags : wallet.walletFlags =
    if created.isEmpty then base.walletFlags else base.walletFlags &&& ~~~walletFlagBlankWallet
  snapshot : wallet.walletFlagsTxnSnapshot = if created.isEmpty then none else some base.walletFlags
  publish : ∀ y, commitAll listeners y =
    ActiveOp.publishAll (base.planned params policy done) (CWallet.settled created y)
  undo : ∀ y, abortAll listeners y = CWallet.withoutCreated created y
  active : ∀ internal type, work.activeSpk internal type =
    (ActiveOp.recordAll (base.planned params policy done) start).activeSpk internal type
  managed : ∀ op ∈ base.planned params policy done, op.Manages wallet
  stored : base.Stored start → wallet.Stored work
  recorded : (start .flags).getD 0 = base.walletFlags → (work .flags).getD 0 = wallet.walletFlags
  seeds : ∀ key : DBKey, key.ofSeeds = true → work key = start key

namespace SyncProgress

variable {params : Params} {policy : PQHDPolicy} {base wallet : CWallet} {start work : Records}
  {seen done : List (Bool × OutputType)} {created : Created} {listeners : List (Listener CWallet)}

lemma begin (hsnapshot : base.walletFlagsTxnSnapshot = none) :
    SyncProgress params policy base start [] [] [] base [] start where
  rest := ⟨_, _, _, rfl⟩
  entries := rfl
  policies := fun _ hentry => (not_mem_nil hentry).elim
  flags := rfl
  snapshot := hsnapshot
  publish := fun _ => rfl
  undo := fun _ => rfl
  active := fun _ _ => rfl
  managed := fun _ hop => (not_mem_nil hop).elim
  stored := fun h => h
  recorded := fun h => h
  seeds := fun _ _ => rfl

section

variable (h : SyncProgress params policy base start seen done created wallet listeners work)
include h

lemma lookup_eq (id : Uint256) :
    wallet.spkManagers.lookup id = (created.dlookup id).or (base.spkManagers.lookup id) := by
  rw [AList.lookup, h.entries, List.dlookup_append]
  rfl

lemma fresh {entry : (_ : Uint256) × DescriptorScriptPubKeyMan} (hentry : entry ∈ created) :
    entry.1 ∉ base.spkManagers := by
  have hnodup := wallet.spkManagers.nodupKeys
  rw [h.entries, List.NodupKeys, List.keys, List.map_append, List.nodup_append] at hnodup
  intro hmem
  exact hnodup.2.2 _ (List.mem_map_of_mem hentry) _ hmem rfl

lemma lookup_base {id : Uint256} (hmem : id ∈ base.spkManagers) :
    wallet.spkManagers.lookup id = base.spkManagers.lookup id := by
  have habsent : created.dlookup id = none := by
    rw [dlookup_eq_none]
    intro hkey
    obtain ⟨value, hentry⟩ := exists_of_mem_keys hkey
    exact h.fresh hentry hmem
  rw [h.lookup_eq, habsent, none_or]

lemma active_eq : wallet.active = base.active := by
  obtain ⟨managers, flags, snapshot, rfl⟩ := h.rest
  rfl

lemma mono_seen (target : Bool × OutputType) :
    SyncProgress params policy base start (seen ++ [target]) done created wallet listeners work :=
  { h with
    policies := fun entry hentry => by
      obtain ⟨hid, other, hother, hdesc⟩ := h.policies entry hentry
      exact ⟨hid, other, mem_append_left _ hother, hdesc⟩ }

end

lemma undone {m : CWallet} (hsane : m.Sane) (hbase : base = { m with pqhdPolicy := some policy })
    (h : SyncProgress params policy base start seen done created wallet listeners work) :
    abortAll listeners { wallet with pqhdPolicy := m.pqhdPolicy, walletFlags := m.walletFlags } =
      m := by
  have hentries := h.entries
  have hsnapshot := h.snapshot
  have hfresh : ∀ entry ∈ created, entry.1 ∉ m.spkManagers := by
    intro entry hentry
    have hbaseFresh := h.fresh hentry
    rwa [hbase] at hbaseFresh
  obtain ⟨managers, flags, snapshot, rfl⟩ := h.rest
  subst hbase
  subst hsnapshot
  have hm : ({ m with walletFlagsTxnSnapshot := none } : CWallet) = m := by rw [← hsane.snapshot]
  rw [h.undo, CWallet.withoutCreated]
  cases hcreated : created with
  | nil =>
    rw [hcreated, nil_append] at hentries
    have hmanagers : managers = m.spkManagers := ext hentries
    subst hmanagers
    exact hm
  | cons entry others =>
    rw [← hcreated]
    have hflags : created.isEmpty = false := by rw [hcreated]; rfl
    simp only [hflags, Bool.false_eq_true, if_false, flagsListener, elim_some]
    have hinactive : ∀ entry ∈ created, ∀ internal type,
        ({ m with spkManagers := managers, walletFlagsTxnSnapshot := none } :
          CWallet).active.managers
          internal type ≠ some entry.1 := by
      intro other hother internal type hactive
      exact hfresh other hother (hsane.managed internal type other.1 hactive)
    obtain ⟨left, hwallet, hleft⟩ := CWallet.foldr_removeScriptPubKeyMan created hinactive
    apply hwallet.trans
    have hmanagers : left = m.spkManagers := by
      apply AList.ext
      rw [hleft, hentries, filter_append]
      have hnone : created.filter (fun entry => entry.1 ∉ created.keys) = [] := by
        rw [filter_eq_nil_iff]
        intro other hother
        simpa using mem_keys_of_mem hother
      have hall : m.spkManagers.entries.filter (fun entry => entry.1 ∉ created.keys) =
          m.spkManagers.entries := by
        rw [filter_eq_self]
        intro other hother
        rw [decide_eq_true_iff]
        intro hkey
        obtain ⟨value, hvalue⟩ := exists_of_mem_keys hkey
        have hmem : other.1 ∈ m.spkManagers := mem_keys_of_mem hother
        exact hfresh _ hvalue hmem
      rw [hnone, hall, nil_append]
    rw [hmanagers]
    exact hm

variable {target : Bool × OutputType}

lemma find_eq (h : SyncProgress params policy base start seen done created wallet listeners work)
    (hmanaged : ∀ internal type id, base.active.managers internal type = some id →
      id ∈ base.spkManagers)
    (hseen : target ∉ seen) (seedId : Uint256) (schemePrefix : UInt8) :
    wallet.findPQHDDescriptorForPath target.2 target.1 seedId schemePrefix =
      base.findPQHDDescriptorForPath target.2 target.1 seedId schemePrefix := by
  have hother : ∀ entry ∈ created, matchesPath entry.2.walletDescriptor.descriptor target.2 target.1
      seedId schemePrefix = false := by
    intro entry hentry
    obtain ⟨-, other, hmem, hdesc⟩ := h.policies entry hentry
    rw [Bool.eq_false_iff]
    intro hmatch
    rw [PQHDPolicy.matchesPath_descriptorOf hdesc hmatch] at hmem
    exact hseen hmem
  simp only [CWallet.findPQHDDescriptorForPath, CWallet.getScriptPubKeyMan, h.active_eq, h.entries]
  congr 1
  · cases hactive : base.active.managers target.1 target.2 with
    | none => rfl
    | some id =>
      rw [filter_some, filter_some, h.lookup_base (hmanaged _ _ _ hactive)]
  · rw [find?_append]
    have hnone :
        created.find? (fun entry => matchesPath entry.2.walletDescriptor.descriptor target.2
        target.1 seedId schemePrefix) = none := by
      rw [find?_eq_none]
      intro entry hentry
      simp [hother entry hentry]
    rw [hnone, none_or]

omit [Crypto] in
lemma planned_snoc :
    base.planned params policy (done ++ [target]) = base.planned params policy done ++
      ((base.binding params policy target).map fun id =>
        ActiveOp.add id target.2 target.1).toList := by
  rw [CWallet.planned_append, CWallet.planned, CWallet.planned, filterMap_cons, filterMap_nil]
  cases base.binding params policy target <;> rfl

section

variable (h : SyncProgress params policy base start seen done created wallet listeners work)
include h

lemma skip (hbinding : base.binding params policy target = none) :
    SyncProgress params policy base start seen (done ++ [target]) created wallet listeners
      work := by
  have hplanned :
      base.planned params policy (done ++ [target]) = base.planned params policy done := by
    rw [planned_snoc, hbinding]
    exact append_nil _
  exact { h with
    publish := by rw [hplanned]; exact h.publish
    active := by rw [hplanned]; exact h.active
    managed := by rw [hplanned]; exact h.managed }

lemma bind
    {id : Uint256} (hbinding : base.binding params policy target = some id)
    (hmem : id ∈ wallet.spkManagers) :
    SyncProgress params policy base start seen (done ++ [target]) created wallet
      (listeners ++ [⟨fun wallet => wallet.activated id target.2 target.1, fun wallet => wallet⟩])
      (work.set (.activeSpk target.1 target.2) (some id)) := by
  have hplanned : base.planned params policy (done ++ [target]) =
      base.planned params policy done ++ [.add id target.2 target.1] := by
    rw [planned_snoc, hbinding]
    rfl
  refine { h with
    publish := ?_
    undo := ?_
    active := ?_
    managed := ?_
    stored := ?_
    recorded := ?_
    seeds := ?_ }
  · intro y
    rw [commitAll_append, h.publish, hplanned, ActiveOp.publishAll_append]
    rfl
  · intro y
    rw [abortAll_append, h.undo]
    rfl
  · intro internal type
    rw [hplanned, ActiveOp.recordAll_append, activeSpk_set, h.active]
    exact (activeSpk_set ..).symm
  · intro op hop
    rw [hplanned, mem_append] at hop
    rcases hop with hop | hop
    · exact h.managed op hop
    · rw [mem_singleton.1 hop]
      exact hmem
  · intro hstored key hkey
    have hne : key ≠ .activeSpk target.1 target.2 := by
      rintro rfl
      cases hkey
    rw [set_of_ne hne]
    exact h.stored hstored key hkey
  · intro hrecorded
    exact h.recorded hrecorded
  · intro key hkey
    have hne : key ≠ .activeSpk target.1 target.2 := by
      rintro rfl
      cases hkey
    rw [set_of_ne hne]
    exact h.seeds key hkey

end

/-- What a creation adds to the listeners. -/
def creationListeners (wallet : CWallet) (new : DescriptorScriptPubKeyMan) :
    List (Listener CWallet) :=
  new.rollbackListener ::
    (if wallet.walletFlagsTxnSnapshot.isNone then [flagsListener] else []) ++
    [⟨fun wallet => wallet, fun wallet => wallet.removeScriptPubKeyMan new.getID⟩]

section

omit [Crypto] [DescriptorHash]

variable (h : wallet.walletFlagsTxnSnapshot = if created.isEmpty then none else
  some base.walletFlags)
    (new grown : DescriptorScriptPubKeyMan)
include h

lemma commitAll_creation (ops : List ActiveOp) (y : CWallet) :
    commitAll (creationListeners wallet new) (ActiveOp.publishAll ops (CWallet.settled created y)) =
      ActiveOp.publishAll ops (CWallet.settled (⟨new.getID, grown⟩ :: created) y) := by
  have hrollback : new.rollbackListener.onCommit
      (ActiveOp.publishAll ops (CWallet.settled created y)) = ActiveOp.publishAll ops
        ((CWallet.settled created y).modifyManager new.getID fun current =>
          { current with mutationBatch := false }) := ActiveOp.publishAll_modifyManager ..
  cases created with
  | nil =>
    rw [creationListeners, h]
    apply (congrArg flagsListener.onCommit hrollback).trans
    exact ActiveOp.publishAll_snapshot ..
  | cons entry others =>
    rw [creationListeners, h]
    exact hrollback

lemma abortAll_creation (y : CWallet) :
    abortAll (creationListeners wallet new) (CWallet.withoutCreated created y) =
      CWallet.withoutCreated (⟨new.getID, grown⟩ :: created) y := by
  cases created with
  | nil =>
    rw [creationListeners, h]
    have hflags : ∀ f, flagsListener.onAbort (y.modifyManager new.getID f) =
        (flagsListener.onAbort y).modifyManager new.getID f := by
      intro f
      change (y.walletFlagsTxnSnapshot).elim _ _ = _
      cases hsnapshot : y.walletFlagsTxnSnapshot with
      | none => simp [flagsListener, hsnapshot]
      | some flags =>
        simp only [flagsListener, hsnapshot, elim_some]
        rfl
    change (flagsListener.onAbort (y.modifyManager new.getID _)).removeScriptPubKeyMan new.getID = _
    rw [hflags, CWallet.removeScriptPubKeyMan_modifyManager]
    rfl
  | cons entry others =>
    rw [creationListeners, h]
    exact CWallet.removeScriptPubKeyMan_modifyManager ..

end

lemma create [PqhdKeys] {seeds : SeedSource} {new grown : DescriptorScriptPubKeyMan}
    {written : Records}
    (h : SyncProgress params policy base start seen done created wallet listeners work)
    (hdesc : policy.descriptorOf target = some new.walletDescriptor.descriptor)
    (hnew : new.getID ∉ wallet.spkManagers) (hempty : new.Empty)
    (hgrows : Grows seeds { new with mutationBatch := true }
      (work.set (.walletDescriptor new.getID) (some new.record)) grown written) :
    SyncProgress params policy base start (seen ++ [target]) done (⟨new.getID, grown⟩ :: created)
      (wallet.withCreated new.getID grown) (listeners ++ creationListeners wallet new)
      ((written.set (.walletDescriptor new.getID) (some grown.record)).set .flags
        (some (wallet.walletFlags &&& ~~~walletFlagBlankWallet))) where
  rest := by
    obtain ⟨managers, flags, snapshot, rfl⟩ := h.rest
    exact ⟨_, _, _, rfl⟩
  entries := by
    have hkeys : new.getID ∉ wallet.spkManagers.entries.keys := hnew
    change ⟨new.getID, grown⟩ :: wallet.spkManagers.entries.kerase new.getID = _
    rw [kerase_of_notMem_keys hkeys, h.entries]
    rfl
  policies := by
    intro entry hentry
    rcases mem_cons.1 hentry with rfl | hentry
    · exact ⟨hgrows.getID_eq, target, by simp, hgrows.descriptor_eq ▸ hdesc⟩
    · exact (h.mono_seen target).policies entry hentry
  flags := by
    change wallet.walletFlags &&& ~~~walletFlagBlankWallet =
      base.walletFlags &&& ~~~walletFlagBlankWallet
    rw [h.flags]
    split
    · rfl
    · rw [UInt64.and_assoc, UInt64.and_self]
  snapshot := by
    change some (wallet.walletFlagsTxnSnapshot.getD wallet.walletFlags) = some base.walletFlags
    rw [h.snapshot, h.flags]
    split <;> rfl
  publish := by
    intro y
    rw [commitAll_append, h.publish]
    exact commitAll_creation h.snapshot new grown _ y
  undo := by
    intro y
    rw [abortAll_append, h.undo]
    exact abortAll_creation h.snapshot new grown y
  active := by
    intro internal type
    rw [← h.active internal type]
    change ((written.set _ _).set .flags _) (.activeSpk internal type) =
      work (.activeSpk internal type)
    exact hgrows.frame_created _ trivial
  managed := by
    intro op hop
    have hop' := h.managed op hop
    cases op with
    | add id type internal => exact mem_insert _ |>.2 (.inr hop')
    | deactivate id type internal => trivial
  stored := fun hstored => (h.stored hstored).withCreated hnew hempty hgrows _
  recorded := by
    intro _
    rfl
  seeds := by
    intro key hkey
    rw [← h.seeds key hkey]
    apply hgrows.frame_created
    cases key with
    | pqhdSeed | pqhdCryptedSeed | pqhdPolicy => trivial
    | _ => cases hkey

end SyncProgress

end Tidecoin
