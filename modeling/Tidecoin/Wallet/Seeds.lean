import Tidecoin.Wallet.Rebinding

/-!
The seeds of a wallet: `ImportPQHDSeed` and `RemovePQHDSeed` of `wallet/wallet.cpp`, and the calls
that choose the default seeds and schemes. A seed stands in the map of seeds, in the set of their
ids and in a record of the database, and it may be the default of the policy or be named by
descriptors.
-/

namespace Tidecoin

open Lib Option AList Records PQHDSeedState List

variable {now : Int} {masterSeed : MasterSeed}

variable {m : CWallet} {d : Records} {params : Params} {s : Session CWallet Records}

/-- The record of a new seed, encrypted or not. -/
inductive SeedRecord where
  | plain (seed : PQHDSeed)
  | crypted (seed : PQHDCryptedSeed)

namespace CWallet

variable (wallet : CWallet) (seedId : Uint256)

/-- The test of `LoadPQHDSeed` and `LoadPQHDCryptedSeed` on the wallet. -/
def takesSeed : Bool :=
  !wallet.isWalletFlagSet (walletFlagDisablePrivateKeys ||| walletFlagExternalSigner) &&
    seedId ∉ wallet.pqhdSeeds

/-- What both functions do with the state of a seed. -/
def withSeed (state : PQHDSeedState) : CWallet :=
  { wallet with
    pqhdSeeds := emplace wallet.pqhdSeeds seedId state
    pqhdSeedIds := insert seedId wallet.pqhdSeedIds }

/-- `LoadPQHDSeed`, for the one version there is. -/
def loadPQHDSeed (seed : PQHDSeed) : Option CWallet :=
  if wallet.takesSeed seedId then
    some (wallet.withSeed seedId ⟨seed.nCreateTime, false, seed.seed, []⟩)
  else none

def loadPQHDCryptedSeed (seed : PQHDCryptedSeed) : Option CWallet :=
  if wallet.takesSeed seedId && seed.cryptedSeed.length = 48 then
    some (wallet.withSeed seedId ⟨seed.nCreateTime, true, [], seed.cryptedSeed⟩)
  else none

end CWallet

namespace SeedRecord

def write (seedId : Uint256) : SeedRecord → WalletAction Bool
  | plain seed => writeIC (.pqhdSeed seedId) seed
  | crypted seed => writeIC (.pqhdCryptedSeed seedId) seed

def load (wallet : CWallet) (seedId : Uint256) : SeedRecord → Option CWallet
  | plain seed => wallet.loadPQHDSeed seedId seed
  | crypted seed => wallet.loadPQHDCryptedSeed seedId seed

/-- The texts of the errors name the kind of seed. -/
def writeError : SeedRecord → String
  | plain _ => "Failed to write PQHD seed"
  | crypted _ => "Failed to write encrypted PQHD seed"

def loadError : SeedRecord → String
  | plain _ => "Failed to load PQHD seed into wallet state"
  | crypted _ => "Failed to load encrypted PQHD seed into wallet state"

end SeedRecord

/-- A master seed. -/
abbrev MasterSeed := { bytes : Bytes // bytes.length = 32 }

structure ImportPQHDSeedResult where
  seedId : Uint256
  inserted : Bool

section

variable [Aes] [PqhdKeys]

/-- The record `ImportPQHDSeed` makes at the time `now`. -/
def CWallet.seedRecord (wallet : CWallet) (now : Int) (seedId : Uint256) (masterSeed : MasterSeed) :
    Except String SeedRecord :=
  if wallet.isCrypted then
    if wallet.isLocked then .error "Cannot import PQHD seed while wallet is locked"
    else
      (encryptSecret wallet.vMasterKey masterSeed.1 seedId).elim
        (.error "Encrypting PQHD seed failed")
        fun cryptedSeed => .ok (.crypted ⟨now, cryptedSeed⟩)
  else .ok (.plain ⟨now, masterSeed.1⟩)

/-- The policy of the first seed. -/
def CWallet.firstPolicy (wallet : CWallet) (seedId : Uint256) : Option PQHDPolicy :=
  if wallet.pqhdPolicy.isNone then some ⟨falcon512Prefix, falcon512Prefix, seedId, seedId⟩ else none

/-- The policy is written where there is a new one. -/
def writeNewPolicy (newPolicy : Option PQHDPolicy) : WalletAction Bool :=
  newPolicy.elim (return true) fun policy => writeIC .pqhdPolicy policy

/-- The lambda `fail_and_abort`. -/
def failAndAbort (error : String) : WalletAction (Except String ImportPQHDSeedResult) := do
  let _ ← txnAbort
  return .error error

/-- `LoadPQHDPolicy`, which can throw. -/
def loadNewPolicy (newPolicy : Option PQHDPolicy) : WalletAction Unit :=
  newPolicy.elim (return ()) fun policy =>
    match loadPQHDPolicy policy with
    | .error what => throw (.thrown what)
    | .ok policy => modifyMemory fun wallet => { wallet with pqhdPolicy := some policy }

/-- The end of `ImportPQHDSeed`: the memory follows the database. -/
def loadImported (seedId : Uint256) (record : SeedRecord) (newPolicy : Option PQHDPolicy) :
    WalletAction (Except String ImportPQHDSeedResult) := do
  match record.load (← get).memory seedId with
  | none => return .error record.loadError
  | some wallet =>
    modifyMemory fun _ => wallet
    loadNewPolicy newPolicy
    return .ok ⟨seedId, true⟩

def importPQHDSeed (now : Int) (masterSeed : MasterSeed) :
    WalletAction (Except String ImportPQHDSeedResult) := do
  let wallet := (← get).memory
  if wallet.isWalletFlagSet (walletFlagDisablePrivateKeys ||| walletFlagExternalSigner) then
    return .error "Private PQHD seeds are disabled for this wallet"
  if !wallet.isWalletFlagSet walletFlagDescriptors then
    return .error "PQHD seed import requires descriptor wallet"
  let seedId := PqhdKeys.seedID masterSeed.1
  if seedId ∈ wallet.pqhdSeeds then return .ok ⟨seedId, false⟩
  match wallet.seedRecord now seedId masterSeed with
  | .error error => return .error error
  | .ok record =>
    let newPolicy := wallet.firstPolicy seedId
    withBatch do
      if !(← txnBegin) then return .error "Failed to start PQHD seed import transaction"
      if !(← record.write seedId) then return ← failAndAbort record.writeError
      if !(← writeNewPolicy newPolicy) then
        return ← failAndAbort "Failed to write default PQHD policy"
      if !(← txnCommit) then return ← failAndAbort "Failed to commit PQHD seed import transaction"
      loadImported seedId record newPolicy

end

/-- The seed is named by a descriptor of the wallet. -/
def CWallet.referencesSeed (wallet : CWallet) (seedId : Uint256) : Bool :=
  wallet.spkManagers.entries.any fun entry =>
    entry.2.walletDescriptor.descriptor.getPQHDSeedIDs.any fun id => id = seedId

/-- The record a seed has. -/
def PQHDSeedState.recordKey (state : PQHDSeedState) (seedId : Uint256) : DBKey :=
  if state.encrypted then .pqhdCryptedSeed seedId else .pqhdSeed seedId

def removePQHDSeed (seedId : Uint256) : WalletAction (Except String Unit) := do
  let wallet := (← get).memory
  if !wallet.isWalletFlagSet walletFlagDescriptors then
    return .error "PQHD seed removal requires descriptor wallet"
  match wallet.pqhdSeeds.lookup seedId with
  | none => return .error "PQHD seed id not found in wallet"
  | some state =>
    if wallet.pqhdSeeds.entries.length ≤ 1 then return .error "Cannot remove the last PQHD seed"
    if wallet.pqhdPolicy.any fun policy =>
        policy.defaultSeedId = seedId || policy.defaultChangeSeedId = seedId then
      return .error "Cannot remove active default PQHD seed"
    if wallet.referencesSeed seedId then
      return .error "Cannot remove PQHD seed referenced by wallet descriptors"
    withBatch do
      if !(← eraseIC (state.recordKey seedId)) then
        return .error "Failed to remove PQHD seed from wallet database"
      modifyMemory fun wallet => { wallet with
        pqhdSeeds := wallet.pqhdSeeds.erase seedId
        pqhdSeedIds := wallet.pqhdSeedIds.erase seedId }
      return .ok ()

section

variable (state : PQHDSeedState) (masterKey : Bytes) (seedId : Uint256)

/-- The bytes of a seed, for an encrypted one under the master key. -/
def PQHDSeedState.bytes [Aes] : Option Bytes :=
  if state.encrypted then decryptSecret masterKey state.cryptedSeed seedId else some state.seed

/-- The seed has the id that is computed from its bytes. -/
def PQHDSeedState.HasID [Aes] [PqhdKeys] : Prop :=
  ∃ bytes, state.bytes masterKey seedId = some bytes ∧ PqhdKeys.seedID bytes = seedId

end

/-- What holds of the seeds of a wallet whose master key is `master_key`, where the seeds in `ever`
have been present at some time. -/
structure CWallet.SeedsKept [Crypto] [Aes] [PqhdKeys] (masterKey : Bytes) (ever : Set Uint256)
    (wallet : CWallet) (records : Records) : Prop where
  sane : wallet.Sane
  key : wallet.vMasterKey = [] ∨ wallet.vMasterKey = masterKey
  defaults : ∀ policy, wallet.pqhdPolicy = some policy → ∀ internal,
    policy.seedOf internal ∈ wallet.pqhdSeeds
  referenced : ∀ seedId ∈ ever, wallet.referencesSeed seedId = true → seedId ∈ wallet.pqhdSeeds
  ids : ∀ seedId, seedId ∈ wallet.pqhdSeedIds ↔ seedId ∈ wallet.pqhdSeeds
  own : ∀ seedId state, wallet.pqhdSeeds.lookup seedId = some state → state.HasID masterKey seedId
  recorded : ∀ key : DBKey, key.ofSeeds = true → records key = wallet.image key

namespace SeedRecord

/-- The state in the map of seeds. -/
def state : SeedRecord → PQHDSeedState
  | plain seed => ⟨seed.nCreateTime, false, seed.seed, []⟩
  | crypted seed => ⟨seed.nCreateTime, true, [], seed.cryptedSeed⟩

/-- The database with the record. -/
def store (records : Records) (seedId : Uint256) : SeedRecord → Records
  | plain seed => records.set (.pqhdSeed seedId) (some seed)
  | crypted seed => records.set (.pqhdCryptedSeed seedId) (some seed)

end SeedRecord

section

variable {work : Records} {R : Stop String → Session CWallet Records → Prop}

lemma SeedRecord.write_working (record : SeedRecord) (seedId : Uint256) :
    Triple (Working m d [] fun records => records = work) (record.write seedId)
      (fun done => cond done (Working m d [] fun records => records = record.store work seedId)
        (Working m d [] fun records => records = work)) R := by
  cases record with
  | plain seed => exact writeIC_working _ _ fun records hrecords => by rw [hrecords]; rfl
  | crypted seed => exact writeIC_working _ _ fun records hrecords => by rw [hrecords]; rfl

/-- The database with the new policy, if there is one. -/
def storeNewPolicy (records : Records) (newPolicy : Option PQHDPolicy) : Records :=
  newPolicy.elim records fun policy => records.set .pqhdPolicy (some policy)

lemma writeNewPolicy_working (newPolicy : Option PQHDPolicy) :
    Triple (Working m d [] fun records => records = work) (writeNewPolicy newPolicy)
      (fun done => cond done (Working m d [] fun records => records = storeNewPolicy work newPolicy)
        (Working m d [] fun records => records = work)) R := by
  cases newPolicy with
  | none => exact .pure fun s hs => hs
  | some policy => exact writeIC_working _ _ fun records hrecords => by rw [hrecords]; rfl

lemma failAndAbort_working (error : String) :
    Triple (Working m d [] fun records => records = work) (failAndAbort error)
      (fun result s => result = .error error ∧ Revertible (fun x => x = m) d s) R := by
  have hundoable : ∀ s, Working m d [] (fun records => records = work) s →
      Undoable (fun x => x = m) d s := fun s hs => hs.undoable fun _ => rfl
  refine .bind (Triple.txnAbort.strengthen hundoable) fun aborted => ?_
  cases aborted with
  | true => exact .pure fun s hs => ⟨rfl, .inl hs⟩
  | false => exact .pure fun s hs => ⟨rfl, .inr hs⟩

lemma outside_of_commits {before s : Session CWallet Records}
    (hbefore : Working m d [] (fun records => records = work) before)
    (hcommits : Commits before s) :
    Outside m work s := by
  obtain ⟨records, htxn, rfl⟩ := hbefore.txn
  obtain ⟨hdatabase, hmemory⟩ := hcommits.eq_of_txn htxn
  exact ⟨by rw [hmemory, hbefore.memory]; rfl, hdatabase, hcommits.txn⟩

section

variable [Aes] [PqhdKeys]

section

variable (wallet : CWallet) (seedId : Uint256) (record : SeedRecord)

/-- The memory after an import. -/
def CWallet.imported : CWallet :=
  { wallet.withSeed seedId record.state with
    pqhdPolicy := wallet.pqhdPolicy.or (wallet.firstPolicy seedId) }

/-- The database after an import. -/
def CWallet.importedRecords (records : Records) : Records :=
  storeNewPolicy (record.store records seedId) (wallet.firstPolicy seedId)

end

omit [PqhdKeys] in
lemma SeedRecord.load_eq {wallet : CWallet} {seedId : Uint256}
    {record : SeedRecord} (hrecord : wallet.seedRecord now seedId masterSeed = .ok record)
    (htakes : wallet.takesSeed seedId) :
    record.load wallet seedId = some (wallet.withSeed seedId record.state) := by
  unfold CWallet.seedRecord at hrecord
  split at hrecord
  · split at hrecord
    · cases hrecord
    · cases hcrypted : encryptSecret wallet.vMasterKey masterSeed.1 seedId with
      | none =>
        rw [hcrypted] at hrecord
        cases hrecord
      | some cryptedSeed =>
        rw [hcrypted, elim_some] at hrecord
        cases hrecord
        have hlength : cryptedSeed.length = 48 := by
          unfold encryptSecret at hcrypted
          split at hcrypted
          · cases hcrypted
          · rw [some_inj] at hcrypted
            rw [← hcrypted, Aes.encryptLength, masterSeed.2]
        simp [load, CWallet.loadPQHDCryptedSeed, htakes, hlength, state]
  · cases hrecord
    simp [load, CWallet.loadPQHDSeed, htakes, state]

omit [Aes] [PqhdKeys] in
lemma loadPQHDPolicy_first (seedId : Uint256) :
    loadPQHDPolicy ⟨falcon512Prefix, falcon512Prefix, seedId, seedId⟩ =
      .ok ⟨falcon512Prefix, falcon512Prefix, seedId, seedId⟩ := by
  have hseed : (if seedId = 0 then seedId else seedId) = seedId := ite_self seedId
  unfold loadPQHDPolicy
  simp only [hseed]
  rfl

omit [PqhdKeys] in
lemma loadImported_outside {seedId : Uint256} {record : SeedRecord}
    (hrecord : m.seedRecord now seedId masterSeed = .ok record) (htakes : m.takesSeed seedId) :
    Triple (Outside m work) (loadImported seedId record (m.firstPolicy seedId))
      (fun result s => result = .ok ⟨seedId, true⟩ ∧
        Outside (m.imported seedId record) work s) R := by
  refine .read fun session hs => ?_
  rw [hs.memory, SeedRecord.load_eq hrecord htakes]
  refine .bind .modifyMemory_outside fun _ => ?_
  refine .bind (Q := fun _ => Outside (m.imported seedId record) work) ?_ fun _ =>
    .pure fun t ht => ⟨rfl, ht⟩
  cases hpolicy : m.pqhdPolicy with
  | none =>
    have hfirst :
        m.firstPolicy seedId = some ⟨falcon512Prefix, falcon512Prefix, seedId, seedId⟩ := by
      simp [CWallet.firstPolicy, hpolicy]
    rw [CWallet.imported, hfirst, hpolicy, loadNewPolicy, elim_some, loadPQHDPolicy_first]
    exact .modifyMemory_outside
  | some policy =>
    have hfirst : m.firstPolicy seedId = none := by simp [CWallet.firstPolicy, hpolicy]
    rw [CWallet.imported, hfirst, hpolicy, loadNewPolicy, elim_none]
    apply Triple.pure
    intro t ht
    refine ⟨?_, ht.database, ht.txn⟩
    rw [ht.memory, some_or, ← hpolicy]
    rfl

lemma importPQHDSeed_outside (now : Int) (masterSeed : MasterSeed) :
    Triple (Outside m d) (importPQHDSeed now masterSeed) (fun _ s => Outside m d s ∨ ∃ record,
        m.seedRecord now (PqhdKeys.seedID masterSeed.1) masterSeed = .ok record ∧
        PqhdKeys.seedID masterSeed.1 ∉ m.pqhdSeeds ∧
        Outside (m.imported (PqhdKeys.seedID masterSeed.1) record)
          (m.importedRecords (PqhdKeys.seedID masterSeed.1) record d) s)
      (fun e s => e = .terminated ∧ s.txn.isSome ∧ s.database = d) := by
  refine .read fun session hs => ?_
  rw [hs.memory]
  refine .ite (fun _ => .pure fun t ht => .inl ht) fun hprivate => ?_
  refine .ite (fun _ => .pure fun t ht => .inl ht) fun _ => ?_
  refine .ite (fun _ => .pure fun t ht => .inl ht) fun hnew => ?_
  cases hrecord : m.seedRecord now (PqhdKeys.seedID masterSeed.1) masterSeed with
  | error error => exact .pure fun t ht => .inl ht
  | ok record =>
    have htakes : m.takesSeed (PqhdKeys.seedID masterSeed.1) := by
      simp [CWallet.takesSeed, hprivate, hnew]
    let success : Except String ImportPQHDSeedResult → Session CWallet Records → Prop := fun _ s =>
      Outside (m.imported (PqhdKeys.seedID masterSeed.1) record)
        (m.importedRecords (PqhdKeys.seedID masterSeed.1) record d) s
    have hfail : ∀ (error : String) (work : Records),
        Triple (Working m d [] fun records => records = work) (failAndAbort error)
          (fun result s => success result s ∨ (True ∧ Revertible (fun x => x = m) d s)) (fun _ _ =>
            False) :=
      fun error work => (failAndAbort_working error).weaken (fun _ t ht => .inr ⟨trivial, ht.2⟩)
        fun _ _ h => h
    refine (Triple.withBatch (A := fun x => x = m) (d := d) (Q := success) (F := fun _ => True)
      (c := fun _ => False) (fun _ t ht => ht.txn) ?_ fun _ _ => False.elim).weaken ?_
      fun _ _ h => h.resolve_left fun h => h.1
    · apply Triple.branch .txnBegin
      swap
      · exact .pure fun t ht => .inr ⟨trivial, .inl ht⟩
      refine .branch ((record.write_working _).strengthen fun t ht => ht.working) ?_ (hfail _ _)
      refine .branch (writeNewPolicy_working _) ?_ (hfail _ _)
      refine .branch (.txnCommit fun t faults ht => ht.withFaults faults) ?_ (hfail _ _)
      have hload :
          Triple (Outside m (m.importedRecords (PqhdKeys.seedID masterSeed.1) record d)) _ _
          (fun _ _ => False) := loadImported_outside hrecord htakes
      refine hload.conseq ?_ ?_ fun _ _ h => h
      · rintro t ⟨before, hbefore, hcommits⟩
        exact outside_of_commits hbefore hcommits
      · exact fun _ t ht => .inl ht.2
    · rintro _ t (ht | ⟨-, ht⟩)
      · exact Or.inr ⟨record, rfl, hnew, ht⟩
      · exact Or.inl ht

end

lemma removePQHDSeed_outside (seedId : Uint256) : Triple (Outside m d) (removePQHDSeed seedId)
      (fun _ s => Outside m d s ∨ ∃ state, m.pqhdSeeds.lookup seedId = some state ∧
        (∀ policy, m.pqhdPolicy = some policy → ∀ internal, policy.seedOf internal ≠ seedId) ∧
        m.referencesSeed seedId = false ∧ Outside { m with
          pqhdSeeds := m.pqhdSeeds.erase seedId
          pqhdSeedIds := m.pqhdSeedIds.erase seedId }
          (d.set (state.recordKey seedId) none) s)
      (fun _ _ => False) := by
  refine .read fun session hs => ?_
  rw [hs.memory]
  refine .ite (fun _ => .pure fun t ht => .inl ht) fun _ => ?_
  cases hlookup : m.pqhdSeeds.lookup seedId with
  | none => exact .pure fun t ht => .inl ht
  | some state =>
    refine .ite (fun _ => .pure fun t ht => .inl ht) fun _ => ?_
    refine .ite (fun _ => .pure fun t ht => .inl ht) fun hdefault => ?_
    refine .ite (fun _ => .pure fun t ht => .inl ht) fun hreferenced => ?_
    have hdefaults : ∀ policy, m.pqhdPolicy = some policy → ∀ internal,
        policy.seedOf internal ≠ seedId := by
      intro policy hpolicy internal
      rw [hpolicy] at hdefault
      simp only [any_some, Bool.or_eq_true, decide_eq_true_eq, not_or] at hdefault
      cases internal with
      | false => exact hdefault.1
      | true => exact hdefault.2
    rw [Bool.not_eq_true] at hreferenced
    apply Triple.withBatch_closed
    · rintro _ t (ht | ⟨_, _, _, _, ht⟩)
      · exact ht.txn
      · exact ht.txn
    · apply Triple.branch (eraseIC_outside (state.recordKey seedId))
      · refine .bind .modifyMemory_outside fun _ => ?_
        exact .pure fun t ht => .inr ⟨state, rfl, hdefaults, hreferenced, ht⟩
      · exact .pure fun t ht => .inl ht

end

lemma CWallet.referencesSeed_iff {wallet : CWallet} {seedId : Uint256} :
    wallet.referencesSeed seedId ↔ ∃ id manager, wallet.spkManagers.lookup id = some manager ∧
      seedId ∈ manager.walletDescriptor.descriptor.getPQHDSeedIDs := by
  rw [referencesSeed, List.any_eq_true]
  constructor
  · rintro ⟨⟨id, manager⟩, hentry, hseed⟩
    refine ⟨id, manager, mem_lookup_iff.2 hentry, ?_⟩
    simpa using hseed
  · rintro ⟨id, manager, hlookup, hseed⟩
    refine ⟨⟨id, manager⟩, mem_lookup_iff.1 hlookup, ?_⟩
    simpa using hseed

lemma PQHDPolicy.getPQHDSeedIDs_descriptorOf {policy : PQHDPolicy} {target : Bool × OutputType}
    {desc : Descriptor} (hdesc : policy.descriptorOf target = some desc) :
    desc.getPQHDSeedIDs = [policy.seedOf target.1] := by
  obtain ⟨internal, type⟩ := target
  cases type <;>
    simp only [descriptorOf, policyDescriptor, some_inj, reduceCtorEq] at hdesc <;>
    subst hdesc <;> rfl

lemma ActiveOp.managed_publishAll {ops : List ActiveOp} {wallet : CWallet}
    (hmanaged : ∀ internal type id, wallet.active.managers internal type = some id →
      id ∈ wallet.spkManagers) (internal : Bool) (type : OutputType) (id : Uint256)
    (hactive : (publishAll ops wallet).active.managers internal type = some id) :
    id ∈ wallet.spkManagers := by
  induction ops generalizing wallet with
  | nil => exact hmanaged internal type id hactive
  | cons op ops ih =>
    rw [← spkManagers_publish op wallet]
    refine ih ?_ hactive
    intro kind other new hnew
    rw [spkManagers_publish]
    cases op with
    | add added type' internal' =>
      by_cases hmem : added ∈ wallet.spkManagers
      · rw [publish, managers_activated hmem] at hnew
        split at hnew
        · split at hnew
          · rw [some_inj] at hnew
            exact hnew ▸ hmem
          · split at hnew
            · cases hnew
            · exact hmanaged kind other new hnew
        · exact hmanaged kind other new hnew
      · rw [publish, CWallet.activated, CWallet.loadActiveScriptPubKeyMan, if_neg hmem] at hnew
        exact hmanaged kind other new hnew
    | deactivate old type' internal' =>
      rw [publish, CWallet.deactivated, ActiveMaps.managers_erase] at hnew
      split at hnew
      · cases hnew
      · exact hmanaged kind other new hnew

namespace PolicyStored

variable [Crypto] [DescriptorHash] {policy : PQHDPolicy}

lemma sane (hsane : m.Sane) (h : PolicyStored params policy m d s) : s.memory.Sane := by
  obtain ⟨-, -, created, wallet, listeners, hprogress, hmemory⟩ := h
  obtain ⟨active, hrest⟩ := memory_eq hsane hprogress
  refine ⟨?_, ?_, ?_⟩
  · intro id manager hlookup
    rw [hmemory, hrest, CWallet.lookup_settled] at hlookup
    obtain ⟨old, hold, rfl⟩ := map_eq_some_iff.1 hlookup
    rw [hprogress.lookup_eq] at hold
    by_cases hcreated : id ∈ created.keys
    · have hvalue : created.dlookup id = some old := by
        rw [or_eq_some_iff] at hold
        rcases hold with hold | ⟨hnone, -⟩
        · exact hold
        · rw [dlookup_eq_none] at hnone
          exact absurd hcreated hnone
      have hold' := hprogress.policies ⟨id, old⟩ (of_mem_dlookup hvalue)
      exact ⟨hold'.1, if_pos hcreated⟩
    · rw [dlookup_eq_none.2 hcreated, none_or] at hold
      obtain ⟨hid, hbatch⟩ := hsane.keyed id old hold
      exact ⟨hid, by rw [← hbatch]; exact if_neg hcreated⟩
  · intro internal type id hactive
    rw [hmemory, hprogress.publish, ActiveOp.spkManagers_publishAll]
    rw [hmemory, hprogress.publish] at hactive
    refine ActiveOp.managed_publishAll ?_ internal type id hactive
    intro kind other old hold
    rw [mem_settled]
    rw [CWallet.settled_rest] at hold
    have hmem : old ∈ m.spkManagers := by
      apply hsane.managed kind other old
      rw [← hold, hprogress.active_eq]
    rw [← lookup_isSome, hprogress.lookup_base hmem]
    exact lookup_isSome.2 hmem
  · rw [hmemory, hrest]
    exact hsane.snapshot

lemma referencesSeed (hsane : m.Sane) (h : PolicyStored params policy m d s) {seedId : Uint256}
    (hreferences : s.memory.referencesSeed seedId) :
    m.referencesSeed seedId ∨ ∃ internal, policy.seedOf internal = seedId := by
  obtain ⟨-, -, created, wallet, listeners, hprogress, hmemory⟩ := h
  obtain ⟨active, hrest⟩ := memory_eq hsane hprogress
  obtain ⟨id, manager, hlookup, hseed⟩ := CWallet.referencesSeed_iff.1 hreferences
  rw [hmemory, hrest, CWallet.lookup_settled] at hlookup
  obtain ⟨old, hold, rfl⟩ := map_eq_some_iff.1 hlookup
  rw [hprogress.lookup_eq, or_eq_some_iff] at hold
  rcases hold with hold | ⟨-, hold⟩
  · obtain ⟨-, target, -, hdesc⟩ := hprogress.policies ⟨id, old⟩ (of_mem_dlookup hold)
    right
    refine ⟨target.1, ?_⟩
    have hids : old.walletDescriptor.descriptor.getPQHDSeedIDs = [policy.seedOf target.1] :=
      PQHDPolicy.getPQHDSeedIDs_descriptorOf hdesc
    have hseed' : seedId ∈ old.walletDescriptor.descriptor.getPQHDSeedIDs := hseed
    rw [hids, mem_singleton] at hseed'
    exact hseed'.symm
  · exact .inl (CWallet.referencesSeed_iff.2 ⟨id, old, hold, hseed⟩)

end PolicyStored

namespace CWallet.SeedsKept

variable [Crypto] [Aes] [PqhdKeys] {masterKey : Bytes} {ever : Set Uint256}

variable (h : m.SeedsKept masterKey ever d)

include h in
lemma extend : m.SeedsKept masterKey (ever ∪ { seedId | seedId ∈ m.pqhdSeeds }) d := { h with
    referenced := by
      rintro seedId (hever | hpresent) hreferenced
      · exact h.referenced seedId hever hreferenced
      · exact hpresent }

include h in
lemma policyStored [DescriptorHash] {params : Params} {policy : PQHDPolicy}
    {s : Session CWallet Records}
    (hstored : PolicyStored params policy m d s) :
    s.memory.SeedsKept masterKey ever s.database := by
  have hreferences : ∀ seedId, s.memory.referencesSeed seedId →
      m.referencesSeed seedId ∨ ∃ internal, policy.seedOf internal = seedId :=
    fun _ hreferenced => hstored.referencesSeed h.sane hreferenced
  have hsane := hstored.sane h.sane
  obtain ⟨-, ⟨schemes, hschemes⟩, created, wallet, listeners, hprogress, hmemory⟩ := hstored
  obtain ⟨hseeds, -⟩ := CWallet.syncCheck_eq_ok hschemes
  have hdefaults : ∀ internal, policy.seedOf internal ∈ m.pqhdSeeds := by
    intro internal
    exact (h.ids _).1 (of_decide_eq_true (hseeds internal).2)
  obtain ⟨active, hrest⟩ := PolicyStored.memory_eq h.sane hprogress
  rw [hrest] at hmemory
  refine ⟨hsane, ?_, ?_, ?_, ?_, ?_, ?_⟩
  · rw [hmemory]
    exact h.key
  · intro current hcurrent internal
    rw [hmemory, some_inj] at hcurrent
    subst hcurrent
    rw [hmemory]
    exact hdefaults internal
  · intro seedId hever hreferenced
    rw [hmemory]
    rcases hreferences seedId hreferenced with hold | ⟨internal, rfl⟩
    · exact h.referenced seedId hever hold
    · exact hdefaults internal
  · rw [hmemory]
    exact h.ids
  · rw [hmemory]
    exact h.own
  · intro key hkey
    rw [hprogress.seeds key hkey, hmemory]
    cases key with
    | pqhdPolicy => exact set_same ..
    | pqhdSeed seedId =>
      exact h.recorded _ hkey
    | pqhdCryptedSeed seedId =>
      exact h.recorded _ hkey
    | _ => cases hkey

omit [Crypto] in
lemma hasID_of_seedRecord {wallet : CWallet} {record : SeedRecord}
    (hrecord : wallet.seedRecord now (PqhdKeys.seedID masterSeed.1) masterSeed = .ok record)
    (hkey : wallet.vMasterKey = [] ∨ wallet.vMasterKey = masterKey) :
    record.state.HasID masterKey (PqhdKeys.seedID masterSeed.1) := by
  refine ⟨masterSeed.1, ?_, rfl⟩
  unfold CWallet.seedRecord at hrecord
  split at hrecord
  · next hcrypted =>
    split at hrecord
    · cases hrecord
    · next hlocked =>
      cases hsecret : encryptSecret wallet.vMasterKey masterSeed.1 (PqhdKeys.seedID masterSeed.1)
        with
      | none =>
        rw [hsecret] at hrecord
        cases hrecord
      | some cryptedSeed =>
        rw [hsecret, elim_some] at hrecord
        cases hrecord
        have hmaster : wallet.vMasterKey = masterKey := by
          rcases hkey with hempty | hmaster
          · exact absurd (by simp [CWallet.isLocked, hcrypted, hempty]) hlocked
          · exact hmaster
        have hbytes : masterSeed.1 ≠ [] := by
          intro hnil
          have hlength := masterSeed.2
          rw [hnil] at hlength
          cases hlength
        rw [hmaster] at hsecret
        exact decryptSecret_encryptSecret hbytes hsecret
  · cases hrecord
    rfl

section

omit [Crypto] [Aes] [PqhdKeys]

lemma store_pqhdSeed {seedId : Uint256} (habsent : d (.pqhdSeed seedId) = none)
    (record : SeedRecord)
    (other : Uint256) : record.store d seedId (.pqhdSeed other) =
      if other = seedId then record.state.record else d (.pqhdSeed other) := by
  by_cases heq : other = seedId
  · subst heq
    cases record with
    | plain seed => simp [SeedRecord.store, SeedRecord.state, record]
    | crypted seed => simp [SeedRecord.store, SeedRecord.state, record, habsent]
  · cases record with
    | plain seed => simp [SeedRecord.store, heq]
    | crypted seed => simp [SeedRecord.store, heq]

lemma store_pqhdCryptedSeed {seedId : Uint256} (habsent : d (.pqhdCryptedSeed seedId) = none)
    (record : SeedRecord) (other : Uint256) : record.store d seedId (.pqhdCryptedSeed other) =
      if other = seedId then record.state.cryptedRecord else d (.pqhdCryptedSeed other) := by
  by_cases heq : other = seedId
  · subst heq
    cases record with
    | plain seed => simp [SeedRecord.store, SeedRecord.state, cryptedRecord, habsent]
    | crypted seed => simp [SeedRecord.store, SeedRecord.state, cryptedRecord]
  · cases record with
    | plain seed => simp [SeedRecord.store, heq]
    | crypted seed => simp [SeedRecord.store, heq]

lemma storeNewPolicy_of_ne {key : DBKey} (hne : key ≠ .pqhdPolicy) (newPolicy : Option PQHDPolicy) :
    storeNewPolicy d newPolicy key = d key := by
  cases newPolicy with
  | none => rfl
  | some policy => exact set_of_ne hne _

lemma importedRecords_pqhdPolicy (seedId : Uint256) (record : SeedRecord)
    (hpolicy : d .pqhdPolicy = m.pqhdPolicy) :
    m.importedRecords seedId record d .pqhdPolicy = (m.imported seedId record).pqhdPolicy := by
  have hstore : record.store d seedId .pqhdPolicy = m.pqhdPolicy := by
    cases record with
    | plain seed => exact (set_of_ne (by simp) _).trans hpolicy
    | crypted seed => exact (set_of_ne (by simp) _).trans hpolicy
  cases hold : m.pqhdPolicy with
  | none =>
    simp [CWallet.importedRecords, CWallet.imported, CWallet.firstPolicy, storeNewPolicy, hold]
  | some current =>
    simp [CWallet.importedRecords, CWallet.imported, CWallet.firstPolicy, storeNewPolicy,
      hold, hstore]

end

omit [Crypto] [Aes] [PqhdKeys] in
lemma lookup_imported {seedId : Uint256} (hnew : seedId ∉ m.pqhdSeeds) (record : SeedRecord)
    (other : Uint256) : (m.imported seedId record).pqhdSeeds.lookup other =
      if other = seedId then some record.state else m.pqhdSeeds.lookup other := by
  change (emplace m.pqhdSeeds seedId record.state).lookup other = _
  rw [emplace, if_neg hnew]
  split
  · next heq => rw [heq, lookup_insert]
  · next hne => exact lookup_insert_ne hne

include h in
lemma imported {record : SeedRecord}
    (hrecord : m.seedRecord now (PqhdKeys.seedID masterSeed.1) masterSeed = .ok record)
    (hnew : PqhdKeys.seedID masterSeed.1 ∉ m.pqhdSeeds) :
    (m.imported (PqhdKeys.seedID masterSeed.1) record).SeedsKept masterKey ever
      (m.importedRecords (PqhdKeys.seedID masterSeed.1) record d) := by
  have hlookup := lookup_imported hnew record
  have hown := hasID_of_seedRecord hrecord h.key
  generalize PqhdKeys.seedID masterSeed.1 = seedId at *
  have hmem : ∀ other, other ∈ (m.imported seedId record).pqhdSeeds ↔
      other = seedId ∨ other ∈ m.pqhdSeeds := by
    intro other
    rw [← lookup_isSome, hlookup, ← lookup_isSome]
    split
    · next heq => simp [heq]
    · next hne => simp [hne]
  have hnone :
      ∀ key : DBKey, key = .pqhdSeed seedId ∨ key = .pqhdCryptedSeed seedId → d key = none := by
    have habsent : m.pqhdSeeds.lookup seedId = none := lookup_eq_none.2 hnew
    rintro key (rfl | rfl)
    · rw [h.recorded _ rfl, CWallet.image, habsent, bind_none]
    · rw [h.recorded _ rfl, CWallet.image, habsent, bind_none]
  refine ⟨⟨h.sane.keyed, h.sane.managed, h.sane.snapshot⟩, h.key, ?_, ?_, ?_, ?_, ?_⟩
  · intro policy hpolicy internal
    rw [hmem]
    cases hold : m.pqhdPolicy with
    | none =>
      have hfirst : policy = ⟨falcon512Prefix, falcon512Prefix, seedId, seedId⟩ := by
        simpa [CWallet.imported, CWallet.firstPolicy, hold, eq_comm] using hpolicy
      left
      rw [hfirst]
      cases internal <;> rfl
    | some current =>
      have hcurrent : policy = current := by
        simpa [CWallet.imported, CWallet.firstPolicy, hold, eq_comm] using hpolicy
      rw [hcurrent]
      exact .inr (h.defaults current hold internal)
  · intro other hever hreferenced
    exact (hmem other).2 (.inr (h.referenced other hever hreferenced))
  · intro other
    rw [hmem, ← h.ids]
    exact Finset.mem_insert
  · intro other state hstate
    rw [hlookup] at hstate
    split at hstate
    · next heq =>
      rw [some_inj] at hstate
      rw [← hstate, heq]
      exact hown
    · exact h.own other state hstate
  · intro key hkey
    cases key with
    | pqhdPolicy => exact importedRecords_pqhdPolicy seedId record (h.recorded _ rfl)
    | pqhdSeed other =>
      rw [CWallet.importedRecords, storeNewPolicy_of_ne (by simp),
        store_pqhdSeed (hnone _ (Or.inl rfl)),
        CWallet.image, hlookup]
      split
      · rfl
      · exact h.recorded _ rfl
    | pqhdCryptedSeed other =>
      rw [CWallet.importedRecords, storeNewPolicy_of_ne (by simp),
        store_pqhdCryptedSeed (hnone _ (Or.inr rfl)), CWallet.image, hlookup]
      split
      · rfl
      · exact h.recorded _ rfl
    | _ => cases hkey

include h in
lemma removed {seedId : Uint256} {state : PQHDSeedState}
    (hlookup : m.pqhdSeeds.lookup seedId = some state)
    (hdefaults : ∀ policy, m.pqhdPolicy = some policy → ∀ internal, policy.seedOf internal ≠ seedId)
    (hreferenced : m.referencesSeed seedId = false) : CWallet.SeedsKept masterKey ever { m with
      pqhdSeeds := m.pqhdSeeds.erase seedId
      pqhdSeedIds := m.pqhdSeedIds.erase seedId } (d.set (state.recordKey seedId) none) := by
  refine ⟨⟨h.sane.keyed, h.sane.managed, h.sane.snapshot⟩, h.key, ?_, ?_, ?_, ?_, ?_⟩
  · intro policy hpolicy internal
    exact mem_erase.2 ⟨hdefaults policy hpolicy internal, h.defaults policy hpolicy internal⟩
  · intro other hever hother
    refine mem_erase.2 ⟨?_, h.referenced other hever hother⟩
    rintro rfl
    rw [show m.referencesSeed other = true from hother] at hreferenced
    cases hreferenced
  · intro other
    exact Finset.mem_erase.trans ((and_congr_right fun _ => h.ids other).trans mem_erase.symm)
  · intro other found hfound
    have hne : other ≠ seedId := by
      rintro rfl
      rw [lookup_erase] at hfound
      cases hfound
    rw [lookup_erase_ne hne] at hfound
    exact h.own other found hfound
  · intro key hkey
    have hseed : d (.pqhdSeed seedId) = state.record := by
      rw [h.recorded _ rfl, CWallet.image, hlookup, bind_some]
    have hcrypted : d (.pqhdCryptedSeed seedId) = state.cryptedRecord := by
      rw [h.recorded _ rfl, CWallet.image, hlookup, bind_some]
    cases key with
    | pqhdPolicy =>
      refine (set_of_ne ?_ _).trans (h.recorded _ rfl)
      unfold recordKey
      split <;> simp
    | pqhdSeed other =>
      rw [CWallet.image]
      by_cases heq : other = seedId
      · subst heq
        rw [lookup_erase, bind_none]
        cases hencrypted : state.encrypted with
        | true => simp [recordKey, hencrypted, hseed, record]
        | false => exact set_none (by simp [recordKey, hencrypted])
      · rw [lookup_erase_ne heq]
        refine (set_of_ne ?_ _).trans (h.recorded _ rfl)
        unfold recordKey
        split <;> simp [heq]
    | pqhdCryptedSeed other =>
      rw [CWallet.image]
      by_cases heq : other = seedId
      · subst heq
        rw [lookup_erase, bind_none]
        cases hencrypted : state.encrypted with
        | true => exact set_none (by simp [recordKey, hencrypted])
        | false => simp [recordKey, hencrypted, hcrypted, cryptedRecord]
      · rw [lookup_erase_ne heq]
        refine (set_of_ne ?_ _).trans (h.recorded _ rfl)
        unfold recordKey
        split <;> simp [heq]
    | _ => cases hkey

end CWallet.SeedsKept

/-- The calls that change the seeds or the policy. -/
inductive SeedCall where
  | importSeed (now : Int) (masterSeed : MasterSeed)
  | policy (now : Nat) (update : PolicyUpdate)
  | remove (seedId : Uint256)

section

variable [Crypto] [PqhdKeys] [Aes] [KeyCheck] [DescriptorHash]

/-- The call, whatever it answers. -/
def SeedCall.run (call : SeedCall) (params : Params) : WalletAction Unit :=
  match call with
  | importSeed now masterSeed => do let _ ← importPQHDSeed now masterSeed
  | policy now update => do let _ ← update.run params now
  | remove seedId => do let _ ← removePQHDSeed seedId

variable {params : Params} {masterKey : Bytes} {ever : Set Uint256} {s : Session CWallet Records}

lemma SeedCall.run_kept (call : SeedCall) (hkept : m.SeedsKept masterKey ever d) :
    Triple (Outside m d) (call.run params)
      (fun _ s => s.txn = none ∧ s.memory.SeedsKept masterKey ever s.database)
      (fun e s => e = .terminated ∧ s.database = d) := by
  have hsame :
      ∀ s, Outside m d s → s.txn = none ∧ s.memory.SeedsKept masterKey ever s.database := by
    intro s hs
    rw [hs.memory, hs.database]
    exact ⟨hs.txn, hkept⟩
  cases call with
  | importSeed now masterSeed =>
    refine .bind ((importPQHDSeed_outside now masterSeed).weaken (fun _ _ hs => hs)
      fun e s hs => ⟨hs.1, hs.2.2⟩) fun _ => .pure ?_
    rintro s (hs | ⟨record, hrecord, hnew, hs⟩)
    · exact hsame s hs
    · rw [hs.memory, hs.database]
      exact ⟨hs.txn, hkept.imported hrecord hnew⟩
  | policy now update =>
    refine .bind (Q := fun _ s => s.txn = none ∧ s.memory.SeedsKept masterKey ever s.database) ?_
      fun _ => .pure fun s hs => hs
    intro s hs
    have hmemory : s.memory = m := hs.memory
    have hdatabase : s.database = d := hs.database
    subst hmemory hdatabase
    cases hpolicy : update.policy params s.memory with
    | error error =>
      rw [PolicyUpdate.run_of_error hpolicy]
      exact ends_ok.2 (hsame s hs)
    | ok next =>
      obtain ⟨hanswer, hstop⟩ : Ends (update.run params now s) _ _ :=
        PolicyUpdate.run_stored hkept.sane hs.txn hpolicy
      refine ⟨?_, fun e t ht => ⟨(hstop e t ht).1, (hstop e t ht).2.2⟩⟩
      rintro (error | _) t ht
      · exact hsame t (hanswer _ t ht)
      · have hstored : PolicyStored params next s.memory s.database t := hanswer _ t ht
        exact ⟨hstored.1, hkept.policyStored hstored⟩
  | remove seedId =>
    refine .bind ((removePQHDSeed_outside seedId).weaken (fun _ _ hs => hs)
      fun _ _ h => h.elim) fun _ => .pure ?_
    rintro s (hs | ⟨state, hlookup, hdefaults, hreferenced, hs⟩)
    · exact hsame s hs
    · rw [hs.memory, hs.database]
      exact ⟨hs.txn, hkept.removed hlookup hdefaults hreferenced⟩

/-- A run of calls, each at a height of its own, with the seeds that were ever present: those of
`before` and those of every state of the run. -/
inductive SeedRun (params : Params) (before : Set Uint256) (start : Session CWallet Records) :
    Set Uint256 → Session CWallet Records → Prop where
  | start : SeedRun params before start (before ∪ { seedId | seedId ∈ start.memory.pqhdSeeds })
    start
  | call {ever : Set Uint256} {s next : Session CWallet Records} (call : SeedCall) (height : Int)
      (run : SeedRun params before start ever s)
      (step : call.run params
        { s with memory := { s.memory with targetHeightForOutputs := height } } = .ok () next) :
      SeedRun params before start (ever ∪ { seedId | seedId ∈ next.memory.pqhdSeeds }) next

/-- Whatever calls are made and wherever they fail, the default seeds are present, a seed a
descriptor names that was ever present is present, and the map of seeds, the set of ids and the
records agree. -/
theorem seeds_kept {before : Set Uint256} {start : Session CWallet Records}
    (htxn : start.txn = none)
    (hkept : start.memory.SeedsKept masterKey before start.database)
    (hrun : SeedRun params before start ever s) :
    s.txn = none ∧ s.memory.SeedsKept masterKey ever s.database := by
  induction hrun with
  | start => exact ⟨htxn, hkept.extend⟩
  | @call ever s next call height run step ih =>
    obtain ⟨hclosed, hkept⟩ := ih
    let higher : CWallet := { s.memory with targetHeightForOutputs := height }
    have hhigher : higher.SeedsKept masterKey ever s.database :=
      ⟨⟨hkept.sane.keyed, hkept.sane.managed, hkept.sane.snapshot⟩, hkept.key, hkept.defaults,
        hkept.referenced, hkept.ids, hkept.own, fun key hkey => by
          rw [hkept.recorded key hkey]
          cases key <;> rfl⟩
    have hnext :=
      (call.run_kept hhigher { s with memory := higher } ⟨rfl, rfl, hclosed⟩).1 () next step
    exact ⟨hnext.1, hnext.2.extend⟩

end

/-- A new wallet. -/
def newWallet [Crypto] : Session CWallet Records :=
  ⟨CWallet.blank, CWallet.blank.image, none, fun _ => false⟩

lemma sane_blank : CWallet.blank.Sane where
  keyed := fun _ _ h => by cases h
  managed := fun internal _ _ h => by
    cases internal with
    | false => cases h
    | true => cases h
  snapshot := rfl

lemma seedsKept_newWallet [Crypto] [Aes] [PqhdKeys] :
    newWallet.memory.SeedsKept [] ∅ newWallet.database where
  sane := sane_blank
  key := .inl rfl
  defaults := fun _ h => by cases h
  referenced := fun _ h => h.elim
  ids := fun seedId => iff_of_false (Finset.notMem_empty seedId) (notMem_empty seedId)
  own := fun _ _ h => by cases h
  recorded := fun _ _ => rfl

/-- The state after the calls, in turn, each at its height. -/
def SeedCall.runAll [Crypto] [PqhdKeys] [Aes] [KeyCheck] [DescriptorHash] (params : Params) :
    List (SeedCall × Int) → Session CWallet Records → Option (Session CWallet Records)
  | [], s => some s
  | (call, height) :: calls, s =>
    match call.run params
        { s with memory := { s.memory with targetHeightForOutputs := height } } with
    | .ok _ next => runAll params calls next
    | .error _ _ => none

lemma SeedRun.append [Crypto] [PqhdKeys] [Aes] [KeyCheck] [DescriptorHash] {params : Params}
    {ever : Set Uint256} {start s final : Session CWallet Records} (before : Set Uint256)
    (calls : List (SeedCall × Int)) (hrun : SeedRun params before start ever s)
    (hcalls : SeedCall.runAll params calls s = some final) :
    ∃ ever, SeedRun params before start ever final := by
  induction calls generalizing ever s with
  | nil =>
    cases hcalls
    exact ⟨ever, hrun⟩
  | cons call calls ih =>
    rw [SeedCall.runAll] at hcalls
    split at hcalls
    case h_1 _ next hstep => exact ih (.call call.1 call.2 hrun hstep) hcalls
    case h_2 => cases hcalls

/-- Three imports, a change of the default that cannot set up a descriptor, and two removals, of
which that of the default is refused. -/
def seedCalls : List (SeedCall × Int) :=
  [(.importSeed 1 ⟨replicate 32 5, rfl⟩, 0), (.importSeed 2 ⟨replicate 32 6, rfl⟩, 0),
    (.policy 3 (.seeds 6 6), 1), (.remove 5, 2), (.importSeed 4 ⟨replicate 32 7, rfl⟩, 2),
    (.remove 6, 2)]

lemma runAll_seedCalls : let _ := Crypto.digits
    let _ : PqhdKeys := ⟨fun _ _ => none, fun seed => (seed.headD 0).toBitVec.setWidth 256⟩
    let _ := Aes.padded
    let _ : KeyCheck := ⟨fun _ _ => true⟩
    let _ : DescriptorHash := ⟨fun _ => 0⟩
    (SeedCall.runAll mainParams seedCalls newWallet).map (fun s => s.memory.pqhdSeeds.keys) =
      some [7, 5] := by
  decide +kernel

theorem seeds_kept_calls : let _ := Crypto.digits
    let _ : PqhdKeys := ⟨fun _ _ => none, fun seed => (seed.headD 0).toBitVec.setWidth 256⟩
    let _ := Aes.padded
    let _ : KeyCheck := ⟨fun _ _ => true⟩
    let _ : DescriptorHash := ⟨fun _ => 0⟩
    ∃ ever s, SeedRun mainParams ∅ newWallet ever s ∧ s.memory.pqhdSeeds.keys = [7, 5] ∧
      s.memory.SeedsKept [] ever s.database := by
  intro _ _ _ _ _
  obtain ⟨s, hcalls, hkeys⟩ := Option.map_eq_some_iff.1 runAll_seedCalls
  obtain ⟨ever, hrun⟩ := SeedRun.append ∅ seedCalls .start hcalls
  exact ⟨ever, s, hrun, hkeys, (seeds_kept rfl seedsKept_newWallet hrun).2⟩

end Tidecoin
