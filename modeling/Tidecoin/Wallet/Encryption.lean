import Tidecoin.Wallet.Seeds
import Tidecoin.Wallet.Upheld

/-!
The encryption of a wallet: `EncryptWallet` of `wallet/wallet.cpp`. One transaction writes the
master key and replaces every key and seed in the database, and its commit replaces them in the
memory. Then the wallet is unlocked and gets descriptors of a new seed, in a transaction of its own.
-/

namespace Tidecoin

open Lib Option AList List Records CWallet

variable {after work records : Records} {wallet before : CWallet} {publish : CWallet → CWallet}
  {masterKey passphrase : Bytes} {nID : Nat} {stored : CMasterKey}

/-- A key of the size the cipher takes. -/
abbrev KeyingMaterial := { bytes : Bytes // bytes.length = walletCryptoKeySize }

/-- What the commit of an encryption makes of a seed. -/
def CWallet.sealSeed (wallet : CWallet) (seedId : Uint256) (cryptedSeed : Bytes) : CWallet :=
  { wallet with
    pqhdSeeds := (wallet.pqhdSeeds.lookup seedId).elim wallet.pqhdSeeds fun state =>
      wallet.pqhdSeeds.replace seedId
        { state with seed := [], cryptedSeed := cryptedSeed, encrypted := true } }

section

variable [Crypto] [Aes]

/-- The managers of `EncryptWallet`. -/
def encryptManagers (masterKey : Bytes) :
    List (Sigma fun _ : Uint256 => DescriptorScriptPubKeyMan) → WalletAction Bool
  | [] => return true
  | entry :: others => do
      if !(← entry.2.encrypt masterKey) then return false
      encryptManagers masterKey others

omit [Crypto] in
/-- The seeds of `EncryptWallet`. -/
def encryptSeeds (masterKey : Bytes) : List (Sigma fun _ : Uint256 => PQHDSeedState) →
    WalletAction Bool
  | [] => return true
  | entry :: others =>
    if entry.2.encrypted then encryptSeeds masterKey others
    else
      match encryptSecret masterKey entry.2.seed entry.1 with
      | none => return false
      | some cryptedSeed => do
          if !(← writeIC (.pqhdCryptedSeed entry.1) ⟨entry.2.createTime, cryptedSeed⟩) then
            return false
          if !(← eraseIC (.pqhdSeed entry.1)) then return false
          registerTxnListener ⟨fun wallet => wallet.sealSeed entry.1 cryptedSeed, fun wallet =>
            wallet⟩
          encryptSeeds masterKey others

/-- The transaction of `EncryptWallet`. -/
def encryptSecrets (newMasterKeyId : Nat) (masterKey : CMasterKey) (plainMasterKey : Bytes) :
    WalletAction Bool :=
  runWithinTxn do
    if !(← writeIC (.masterKey newMasterKeyId) masterKey) then return false
    let wallet := (← get).memory
    if !(← encryptManagers plainMasterKey wallet.spkManagers.entries) then return false
    encryptSeeds plainMasterKey wallet.pqhdSeeds.entries

end

/-- `AddScriptPubKeyManWithDb`, which replaces a manager of the same id. -/
def addScriptPubKeyManWithDb (id : Uint256) (manager : DescriptorScriptPubKeyMan) :
    WalletAction Unit :=
  modifyMemory fun wallet => { wallet with spkManagers := wallet.spkManagers.insert id manager }

/-- A descriptor text of an external signer, and what `Parse` makes of it. -/
inductive SignerDescriptor where
  | invalid (descStr descError : String)
  | parsed (hasKeys : Bool) (descs : List Descriptor)

/-- What an external signer answers: an error, or for each kind of addresses its descriptors, where
the answer can be read. -/
abbrev SignerAnswer := Except String (Bool → Option (List SignerDescriptor))

section

variable [Crypto] [PqhdKeys] [Aes] [KeyCheck] [DescriptorHash]

omit [Crypto] [KeyCheck] [DescriptorHash] in
/-- `SetupOwnDescriptorScriptPubKeyMans` stores its new seed: the memory has it at once. -/
def storeOwnSeed (now : Nat) (seedId : Uint256) (masterSeed : MasterSeed) : WalletAction Unit := do
  let wallet := (← get).memory
  if wallet.isCrypted then
    if wallet.isLocked then throw (.thrown
      "SetupOwnDescriptorScriptPubKeyMans: Wallet is locked, cannot setup encrypted PQHD seed")
    match encryptSecret wallet.vMasterKey masterSeed.1 seedId with
    | none => throw (.thrown "SetupOwnDescriptorScriptPubKeyMans: encrypting PQHD seed failed")
    | some cryptedSeed =>
      if !(← writeIC (.pqhdCryptedSeed seedId) ⟨now, cryptedSeed⟩) then throw (.thrown
        "SetupOwnDescriptorScriptPubKeyMans: writing encrypted PQHD seed failed")
      modifyMemory fun wallet =>
        (wallet.loadPQHDCryptedSeed seedId ⟨now, cryptedSeed⟩).getD wallet
  else
    if !(← writeIC (.pqhdSeed seedId) ⟨now, masterSeed.1⟩) then
      throw (.thrown "SetupOwnDescriptorScriptPubKeyMans: writing PQHD seed failed")
    modifyMemory fun wallet => (wallet.loadPQHDSeed seedId ⟨now, masterSeed.1⟩).getD wallet

omit [Crypto] [PqhdKeys] [Aes] [KeyCheck] [DescriptorHash] in
/-- The policy of a wallet that is set up. -/
def ownPolicy (seedId : Uint256) : PQHDPolicy := ⟨falcon512Prefix, falcon512Prefix, seedId, seedId⟩

omit [KeyCheck] [DescriptorHash] in
/-- The manager of a descriptor that is set up, as an active one. -/
def setupActive (error : String) (manager : DescriptorScriptPubKeyMan) (type : OutputType)
    (internal : Bool) : WalletAction Unit := do
  match ← setupDescriptor manager with
  | none => throw (.thrown error)
  | some manager =>
    addScriptPubKeyManWithDb manager.getID manager
    addActiveScriptPubKeyManWithDb manager.getID type internal

/-- A pass of the loops of `SetupOwnDescriptorScriptPubKeyMans`. -/
def setupOwnTarget (params : Params) (now : Nat) (policy : PQHDPolicy)
    (target : Bool × OutputType) :
    WalletAction Unit := do
  let wallet := (← get).memory
  let targetHeight := wallet.targetHeightForOutputs
  if target.2 = .bech32pq && targetHeight < params.nAuxpowStartHeight then return
  match generatePQHDWalletDescriptor params now (policy.seedOf target.1) (policy.schemeOf target.1)
      target.2 target.1 targetHeight with
  | .error stop => throw stop
  | .ok wDesc =>
    let manager := DescriptorScriptPubKeyMan.new wDesc wallet.keypoolSize
    if wallet.isCrypted && wallet.isLocked then throw (.thrown
      "SetupOwnDescriptorScriptPubKeyMans: Wallet is locked, cannot setup new descriptors")
    if !(← acceptMasterKey manager) then
      throw (.thrown "SetupOwnDescriptorScriptPubKeyMans: Could not encrypt new descriptors")
    setupActive "SetupOwnDescriptorScriptPubKeyMans: Could not set up PQHD descriptor keypool"
      manager
      target.2 target.1

/-- `SetupOwnDescriptorScriptPubKeyMans`, with the seed it draws. -/
def setupOwnDescriptorScriptPubKeyMans (params : Params) (now : Nat) (masterSeed : MasterSeed) :
    WalletAction Unit := do
  if (← get).memory.isWalletFlagSet (walletFlagDisablePrivateKeys ||| walletFlagExternalSigner) then
    throw (.thrown "Private PQHD seeds are disabled for this wallet")
  let seedId := PqhdKeys.seedID masterSeed.1
  storeOwnSeed now seedId masterSeed
  let policy := ownPolicy seedId
  if !(← writeIC .pqhdPolicy policy) then
    throw (.thrown "SetupOwnDescriptorScriptPubKeyMans: writing PQHD policy failed")
  loadNewPolicy (some policy)
  syncTargets.forM (setupOwnTarget params now policy)

section

variable (now : Nat) (internal : Bool) (importedOutputTypes : List OutputType)

omit [KeyCheck] in
/-- A descriptor of an external signer is set up, with the output types imported so far. -/
def setupSignerDescriptor
    (desc : Descriptor) : WalletAction (List OutputType) := do
  if desc.isRange || !desc.getPQHDKeyPaths.entries.isEmpty then throw (.thrown
    "External signer must provision fixed public descriptors; PQHD seed identifiers cannot derive public keys")
  match desc.getOutputType with
  | none => return importedOutputTypes
  | some outType =>
    if importedOutputTypes.any fun type => type = outType then throw (.thrown
      "SetupDescriptorScriptPubKeyMans: duplicate active descriptor output type from external signer")
    setupActive
      "SetupDescriptorScriptPubKeyMans: Could not set up external signer descriptor keypool"
      (.new ⟨⟨desc, now, 0, 0, 0⟩, DescriptorHash.id desc, ∅⟩ (← get).memory.keypoolSize) outType
        internal
    return outType :: importedOutputTypes

omit [KeyCheck] in
/-- A text of an external signer. -/
def setupSignerText :
    SignerDescriptor → WalletAction (List OutputType)
  | .invalid descStr descError => throw (.thrown
      ("SetupDescriptorScriptPubKeyMans: Invalid descriptor \"" ++ descStr ++ "\" (" ++
        descError ++ ")"))
  | .parsed hasKeys descs => do
      if hasKeys then throw (.thrown "External signer must return public descriptors only")
      descs.foldlM (setupSignerDescriptor now internal) importedOutputTypes

end

omit [KeyCheck] in
/-- The descriptors of one kind of addresses of an external signer. -/
def setupSignerKind (now : Nat) (descriptorVals : Bool → Option (List SignerDescriptor))
    (internal : Bool) : WalletAction Unit := do
  match descriptorVals internal with
  | none => throw (.thrown "SetupDescriptorScriptPubKeyMans: Unexpected result")
  | some texts =>
    let importedOutputTypes ← texts.foldlM (setupSignerText now internal) []
    if importedOutputTypes.isEmpty then throw (.thrown
      "SetupDescriptorScriptPubKeyMans: external signer returned no usable descriptors")

def setupDescriptorScriptPubKeyMans (params : Params) (now : Nat) (masterSeed : MasterSeed)
    (signer : SignerAnswer) : WalletAction Unit := do
  if !(← get).memory.isWalletFlagSet walletFlagExternalSigner then
    if !(← runWithinTxn do
        setupOwnDescriptorScriptPubKeyMans params now masterSeed
        return true) then
      throw (.thrown "Error: cannot process db transaction for descriptors setup")
  else
    match signer with
    | .error what => throw (.thrown what)
    | .ok descriptorVals =>
      withBatch do
        if !(← txnBegin) then
          throw (.thrown "Error: cannot create db transaction for descriptors import")
        [false, true].forM (setupSignerKind now descriptorVals)
        if !(← txnCommit) then
          throw (.thrown "Error: cannot commit db transaction for descriptors import")

/-- What `EncryptWallet` draws at random and finds outside the wallet: the master key, its salt, the
times of the passes that choose the rounds, which managers were checked before, the clock, the seed
of the new descriptors and the answer of an external signer. -/
structure EncryptionInput where
  plainMasterKey : KeyingMaterial
  vchSalt : Bytes
  first : Int
  second : Int
  thorough : Uint256 → Bool
  now : Nat
  masterSeed : MasterSeed
  signer : SignerAnswer

variable (params : Params) (strWalletPassphrase : Bytes) (input : EncryptionInput)

/-- The end of `EncryptWallet`, once the secrets are encrypted. `Rewrite` changes no record. -/
def finishEncryption :
    WalletAction Bool := do
  let _ ← lockWallet
  if !(← unlock strWalletPassphrase input.thorough) then
    throw (.thrown "EncryptWallet: Failed to unlock wallet after encrypting keys")
  if !(← get).memory.isWalletFlagSet walletFlagBlankWallet then
    setupDescriptorScriptPubKeyMans params input.now input.masterSeed input.signer
  let _ ← lockWallet
  return true

def encryptWallet :
    WalletAction Bool := do
  let wallet := (← get).memory
  if !wallet.isWalletFlagSet walletFlagDescriptors then throw .terminated
  if wallet.isCrypted then return false
  match encryptMasterKey strWalletPassphrase input.plainMasterKey.1
      ⟨[], input.vchSalt, 0, defaultDeriveIterations⟩ input.first input.second with
  | none => return false
  | some masterKey =>
    if wallet.nMasterKeyMaxID = 2 ^ 32 - 1 then return false
    let newMasterKeyId := wallet.nMasterKeyMaxID + 1
    if !(← encryptSecrets newMasterKeyId masterKey input.plainMasterKey.1) then return false
    modifyMemory fun wallet => { wallet with
      nMasterKeyMaxID := newMasterKeyId
      mapMasterKeys := wallet.mapMasterKeys.insert newMasterKeyId masterKey }
    finishEncryption params strWalletPassphrase input

end

/-- The kinds of records an encryption of keys writes. -/
def DBKey.ofKeys : DBKey → Bool
  | .walletDescriptorKey _ _ | .walletDescriptorCKey _ _ => true
  | _ => false

/-- Encrypted keys come and are never replaced, and keys go. -/
structure Records.Seals (before after : Records) : Prop where
  crypted : ∀ id pubkey secret, before (.walletDescriptorCKey id pubkey) = some secret →
    after (.walletDescriptorCKey id pubkey) = some secret
  erased : ∀ id pubkey, before (.walletDescriptorKey id pubkey) = none →
    after (.walletDescriptorKey id pubkey) = none
  rest : ∀ key : DBKey, key.ofKeys = false → after key = before key

namespace Records.Seals

variable {before last : Records}

lemma refl (records : Records) : records.Seals records :=
  ⟨fun _ _ _ h => h, fun _ _ h => h, fun _ _ => rfl⟩

lemma trans (hfirst : before.Seals after) (hsecond : after.Seals last) : before.Seals last where
  crypted id pubkey secret h := hsecond.crypted id pubkey secret (hfirst.crypted id pubkey secret h)
  erased id pubkey h := hsecond.erased id pubkey (hfirst.erased id pubkey h)
  rest key h := (hsecond.rest key h).trans (hfirst.rest key h)

lemma key {id : Uint256} {pubkey : CPubKey} (secret : Bytes)
    (hnew : before (.walletDescriptorCKey id pubkey) = none) :
    before.Seals ((before.set (.walletDescriptorCKey id pubkey) (some secret)).set
      (.walletDescriptorKey id pubkey) none) where
  crypted other key found h := by
    have hne : DBKey.walletDescriptorCKey other key ≠ .walletDescriptorCKey id pubkey := by
      rintro ⟨⟩
      rw [hnew] at h
      cases h
    rw [set_of_ne (by simp), set_of_ne hne, h]
  erased other key h := by
    by_cases heq : DBKey.walletDescriptorKey id pubkey = .walletDescriptorKey other key
    · exact set_none heq
    · rw [set_of_ne (Ne.symm heq), set_of_ne (by simp), h]
  rest other h := by
    rw [set_of_ne, set_of_ne]
    · rintro rfl
      cases h
    · rintro rfl
      cases h

end Records.Seals

variable {seedId : Uint256}

lemma CWallet.lookup_sealSeed {state : PQHDSeedState}
    (h : wallet.pqhdSeeds.lookup seedId = some state)
    (cryptedSeed : Bytes) : (wallet.sealSeed seedId cryptedSeed).pqhdSeeds.lookup seedId =
      some { state with seed := [], cryptedSeed := cryptedSeed, encrypted := true } := by
  rw [sealSeed, h, elim_some]
  exact lookup_replace_self _ h

lemma CWallet.lookup_sealSeed_of_ne {other : Uint256} (hne : other ≠ seedId) (cryptedSeed : Bytes) :
    (wallet.sealSeed seedId cryptedSeed).pqhdSeeds.lookup other =
      wallet.pqhdSeeds.lookup other := by
  unfold sealSeed
  cases wallet.pqhdSeeds.lookup seedId with
  | none => rfl
  | some state => exact lookup_replace_of_ne hne _

lemma CWallet.mem_sealSeed {other : Uint256} {cryptedSeed : Bytes} :
    other ∈ (wallet.sealSeed seedId cryptedSeed).pqhdSeeds ↔ other ∈ wallet.pqhdSeeds := by
  unfold sealSeed
  cases wallet.pqhdSeeds.lookup seedId with
  | none => rfl
  | some state => exact mem_replace

/-- Two maps with the same keys both have a value for a key. -/
lemma exists_lookup_of_mem_iff {κ : Type*} [DecidableEq κ] {β : κ → Type*} {s t : AList β} {key : κ}
    {value : β key}
    (h : key ∈ s ↔ key ∈ t) (hvalue : t.lookup key = some value) :
    ∃ found, s.lookup key = some found := by
  have hmem : key ∈ t := lookup_isSome.1 (by rw [hvalue]; rfl)
  exact isSome_iff_exists.1 (lookup_isSome.2 (h.2 hmem))

section

variable [Crypto] [Aes]

/-- A key stands encrypted among the keys of its manager and in the database. -/
def KeySealed (masterKey : Bytes) (id : Uint256)
    (cryptedKeys : AList fun _ : Uint160 => CPubKey × Bytes)
    (records : Records) (keyId : Uint160) (key : CKey) : Prop :=
  ∃ cryptedSecret, cryptedKeys.lookup keyId = some (key.pubkey, cryptedSecret) ∧
    decryptSecret masterKey cryptedSecret key.pubkey.getHash = some key.keydata ∧
    records (.walletDescriptorCKey id key.pubkey) = some cryptedSecret

/-- The keys of a manager as an unencrypted wallet has them. -/
def KeysKept (entries : List (Sigma fun _ : Uint160 => CKey)) : Prop :=
  ∀ entry ∈ entries, entry.1 = entry.2.pubkey.getID ∧ entry.2.keydata ≠ []

variable {m : CWallet} {d start : Records} {R : Stop String → Session CWallet Records → Prop}

omit [Crypto] [Aes] in
lemma writeCryptedDescriptorKey_deferred (descId : Uint256) (pubkey : CPubKey) (secret : Bytes) :
    Triple (Deferred m d work publish) (writeCryptedDescriptorKey descId pubkey secret)
      (fun done => cond done (fun s => work (.walletDescriptorCKey descId pubkey) = none ∧
          Deferred m d ((work.set (.walletDescriptorCKey descId pubkey) (some secret)).set
            (.walletDescriptorKey descId pubkey) none) publish s)
        (Deferring m d fun _ _ => True)) R := by
  apply Triple.branch (insertIC_deferred _ _)
  · rintro s ⟨hnew, hs⟩
    refine (eraseIC_deferred _).weaken ?_ (fun _ _ => id) s hs
    rintro (_ | _) t ht
    · exact ⟨_, _, ht, trivial⟩
    · exact ⟨hnew, ht⟩
  · exact .pure fun s hs => ⟨_, _, hs, trivial⟩

/-- The loop over the keys of a manager. The records and the encrypted keys only grow, so what holds
of a key stays true in the rest of the loop. -/
theorem encryptKeys_deferred (descId : Uint256) (entries : List (Sigma fun _ : Uint160 => CKey))
    {encryptedKeys : AList fun _ : Uint160 => CPubKey × Bytes} (hkept : KeysKept entries)
    (hnodup : entries.NodupKeys) (hnew : ∀ entry ∈ entries, encryptedKeys.lookup entry.1 = none) :
    Triple (Deferred m d work publish) (encryptKeys descId masterKey entries encryptedKeys)
      (fun result s => result.elim (Deferring m d (fun _ _ => True) s) fun cryptedKeys =>
        Deferring m d (fun work' publish' => publish' = publish ∧ work.Seals work' ∧
          (∀ keyId value, encryptedKeys.lookup keyId = some value →
            cryptedKeys.lookup keyId = some value) ∧
          ∀ entry ∈ entries, KeySealed masterKey descId cryptedKeys work' entry.1 entry.2 ∧
            work' (.walletDescriptorKey descId entry.2.pubkey) = none) s) R := by
  induction entries generalizing encryptedKeys work with
  | nil =>
    exact .pure fun s hs => ⟨work, publish, hs, rfl, .refl work, fun _ _ h => h, by simp⟩
  | cons entry others ih =>
    obtain ⟨hkey, hsecret⟩ := hkept entry mem_cons_self
    obtain ⟨habsent, hothers⟩ := nodupKeys_cons.1 hnodup
    unfold encryptKeys
    dsimp only
    cases hencrypt : encryptSecret masterKey entry.2.keydata entry.2.pubkey.getHash with
    | none => exact .pure fun s hs => ⟨_, _, hs, trivial⟩
    | some cryptedSecret =>
      apply Triple.branch (writeCryptedDescriptorKey_deferred descId entry.2.pubkey cryptedSecret)
      · rintro s ⟨hrecord, hs⟩
        have hlookup : ∀ keyId, (emplace encryptedKeys entry.2.pubkey.getID
            (entry.2.pubkey, cryptedSecret)).lookup keyId = (encryptedKeys.lookup keyId).or
              (if keyId = entry.1 then some (entry.2.pubkey, cryptedSecret) else none) := by
          intro keyId
          rw [lookup_emplace, hkey]
        refine (ih (forall_mem_cons.1 hkept).2 hothers ?_).weaken ?_
          (fun _ _ => id) s hs
        · intro other hother
          have hne : other.1 ≠ entry.1 := fun heq => habsent (heq ▸ mem_keys_of_mem hother)
          rw [hlookup, hnew other (mem_cons_of_mem _ hother), if_neg hne]
          rfl
        · rintro (_ | cryptedKeys) t ht
          · exact ht
          · obtain ⟨work', _, hdeferred, rfl, hseals, hkeeps, hsealed⟩ := ht
            refine ⟨work', _, hdeferred, rfl, (Seals.key cryptedSecret hrecord).trans hseals, ?_,
              ?_⟩
            · intro keyId value hvalue
              apply hkeeps
              rw [hlookup, hvalue]
              rfl
            · intro other hother
              rcases mem_cons.1 hother with rfl | hother
              · refine ⟨⟨cryptedSecret, hkeeps _ _ ?_, decryptSecret_encryptSecret hsecret hencrypt,
                  hseals.crypted _ _ _ (by simp)⟩, hseals.erased _ _ (by simp)⟩
                rw [hlookup, hnew other mem_cons_self, if_pos rfl]
                rfl
              · exact hsealed other hother
      · exact .pure fun s hs => hs

lemma encrypt_deferred (manager : DescriptorScriptPubKeyMan)
    (hkept : KeysKept manager.mapKeys.entries) :
    Triple (Deferred m d work publish) (manager.encrypt masterKey) (fun done => cond done
        (Deferring m d fun work' publish' => work.Seals work' ∧ ∃ cryptedKeys,
          publish' = (fun wallet => wallet.modifyManager manager.getID fun current =>
            { current with mapCryptedKeys := cryptedKeys, mapKeys := ∅ }) ∘ publish ∧
          ∀ entry ∈ manager.mapKeys.entries,
            KeySealed masterKey manager.getID cryptedKeys work' entry.1 entry.2 ∧
              work' (.walletDescriptorKey manager.getID entry.2.pubkey) = none)
        (Deferring m d fun _ _ => True)) R := by
  refine .ite (fun _ => .pure fun s hs => ⟨_, _, hs, trivial⟩) fun _ => ?_
  refine .bind (encryptKeys_deferred manager.getID manager.mapKeys.entries hkept
    manager.mapKeys.nodupKeys fun _ _ => rfl) fun result => ?_
  cases result with
  | none => exact .pure fun s hs => hs
  | some cryptedKeys =>
    rintro s ⟨work', _, hdeferred, rfl, hseals, -, hsealed⟩
    refine (Triple.bind (.register_deferred fun _ => rfl) fun _ => ?_) s hdeferred
    exact .pure fun t ht => ⟨work', _, ht, hseals, cryptedKeys, rfl, hsealed⟩

/-- A seed stands encrypted in the memory and in the database. -/
def SeedSealed (masterKey : Bytes) (records : Records) (seedId : Uint256)
    (old state : PQHDSeedState) :
    Prop :=
  state.encrypted = true ∧ state.seed = [] ∧
    decryptSecret masterKey state.cryptedSeed seedId = some old.seed ∧
    ∃ record, records (.pqhdCryptedSeed seedId) = some record ∧
      record.cryptedSeed = state.cryptedSeed

/-- The transaction has the managers and the seeds of the lists still to encrypt. `wallet` is what a
commit would make of the memory `before`. -/
structure SealProgress (masterKey : Bytes) (nID : Nat) (stored : CMasterKey) (before : CWallet)
    (managers : List (Sigma fun _ : Uint256 => DescriptorScriptPubKeyMan))
    (seeds : List (Sigma fun _ : Uint256 => PQHDSeedState)) (records : Records) (wallet : CWallet) :
    Prop where
  same : wallet = { before with
    spkManagers := wallet.spkManagers
    pqhdSeeds := wallet.pqhdSeeds }
  master : records (.masterKey nID) = some stored
  managed : ∀ id, id ∈ wallet.spkManagers ↔ id ∈ before.spkManagers
  seeded : ∀ seedId, seedId ∈ wallet.pqhdSeeds ↔ seedId ∈ before.pqhdSeeds
  sealedKeys : ∀ id old, before.spkManagers.lookup id = some old → id ∉ managers.keys →
    ∃ manager, wallet.spkManagers.lookup id = some manager ∧ manager.mapKeys = ∅ ∧
      ∀ entry ∈ old.mapKeys.entries,
        KeySealed masterKey id manager.mapCryptedKeys records entry.1 entry.2
  open_keys : ∀ id pubkey, records (.walletDescriptorKey id pubkey) ≠ none →
    ∃ manager, ⟨id, manager⟩ ∈ managers ∧ ∃ entry ∈ manager.mapKeys.entries, entry.2.pubkey = pubkey
  sealedSeeds : ∀ seedId old, before.pqhdSeeds.lookup seedId = some old → seedId ∉ seeds.keys →
    ∃ state, wallet.pqhdSeeds.lookup seedId = some state ∧
      SeedSealed masterKey records seedId old state
  open_seeds : ∀ seedId, records (.pqhdSeed seedId) ≠ none → seedId ∈ seeds.keys

namespace SealProgress

variable {managers : List (Sigma fun _ : Uint256 => DescriptorScriptPubKeyMan)}
  {seeds : List (Sigma fun _ : Uint256 => PQHDSeedState)}

lemma manager {entry : (_ : Uint256) × DescriptorScriptPubKeyMan}
    (h : SealProgress masterKey nID stored before (entry :: managers) seeds records wallet)
    (hentry : before.spkManagers.lookup entry.1 = some entry.2) (hseals : records.Seals after)
    {cryptedKeys : AList fun _ => CPubKey × Bytes} (hsealed : ∀ key ∈ entry.2.mapKeys.entries,
      KeySealed masterKey entry.1 cryptedKeys after key.1 key.2 ∧
        after (.walletDescriptorKey entry.1 key.2.pubkey) = none) :
    SealProgress masterKey nID stored before managers seeds after
      (wallet.modifyManager entry.1 fun current =>
        { current with mapCryptedKeys := cryptedKeys, mapKeys := ∅ }) where
  same := by
    rw [modifyManager, h.same]
  master := (hseals.rest _ rfl).trans h.master
  managed id := mem_modifyManager.trans (h.managed id)
  seeded := h.seeded
  sealedKeys id old hold hdone := by
    by_cases heq : id = entry.1
    · subst heq
      rw [hentry, some_inj] at hold
      subst hold
      obtain ⟨current, hcurrent⟩ := exists_lookup_of_mem_iff (h.managed entry.1) hentry
      exact ⟨_, lookup_modifyManager hcurrent, rfl, fun key hkey => (hsealed key hkey).1⟩
    · have hdone' : id ∉ keys (entry :: managers) := not_mem_cons_of_ne_of_not_mem heq hdone
      obtain ⟨manager, hmanager, hempty, hkeys⟩ := h.sealedKeys id old hold hdone'
      refine ⟨manager, ?_, hempty, fun key hkey => ?_⟩
      · rw [lookup_modifyManager_of_ne heq, hmanager]
      · obtain ⟨cryptedSecret, hlookup, hsecret, hrecord⟩ := hkeys key hkey
        exact ⟨cryptedSecret, hlookup, hsecret, hseals.crypted _ _ _ hrecord⟩
  open_keys id pubkey hopen := by
    have hopen' : records (.walletDescriptorKey id pubkey) ≠ none :=
      fun hnone => hopen (hseals.erased id pubkey hnone)
    obtain ⟨manager, hmanager, key, hkey, hpubkey⟩ := h.open_keys id pubkey hopen'
    rcases mem_cons.1 hmanager with rfl | hmanager
    · subst hpubkey
      exact absurd (hsealed key hkey).2 hopen
    · exact ⟨manager, hmanager, key, hkey, hpubkey⟩
  sealedSeeds seedId old hold hdone := by
    obtain ⟨state, hstate, hencrypted, hempty, hseed, record, hrecord, hsame⟩ :=
      h.sealedSeeds seedId old hold hdone
    exact ⟨state, hstate, hencrypted, hempty, hseed, record, (hseals.rest _ rfl).trans hrecord,
      hsame⟩
  open_seeds seedId hopen := by
    apply h.open_seeds
    rwa [← hseals.rest _ rfl]

lemma seed {entry : (_ : Uint256) × PQHDSeedState}
    (h : SealProgress masterKey nID stored before managers (entry :: seeds) records wallet)
    (hentry : before.pqhdSeeds.lookup entry.1 = some entry.2) {cryptedSeed : Bytes}
    (hseed : decryptSecret masterKey cryptedSeed entry.1 = some entry.2.seed) (nCreateTime : Int) :
    SealProgress masterKey nID stored before managers seeds
      ((records.set (.pqhdCryptedSeed entry.1) (some ⟨nCreateTime, cryptedSeed⟩)).set
        (.pqhdSeed entry.1) none) (wallet.sealSeed entry.1 cryptedSeed) where
  same := by
    rw [sealSeed, h.same]
  master := by
    rw [set_of_ne (by simp), set_of_ne (by simp), h.master]
  managed := h.managed
  seeded seedId := mem_sealSeed.trans (h.seeded seedId)
  sealedKeys id old hold hdone := by
    obtain ⟨manager, hmanager, hempty, hkeys⟩ := h.sealedKeys id old hold hdone
    refine ⟨manager, hmanager, hempty, fun key hkey => ?_⟩
    obtain ⟨cryptedSecret, hlookup, hsecret, hrecord⟩ := hkeys key hkey
    refine ⟨cryptedSecret, hlookup, hsecret, ?_⟩
    rw [set_of_ne (by simp), set_of_ne (by simp), hrecord]
  open_keys id pubkey hopen := by
    apply h.open_keys
    rwa [set_of_ne (by simp), set_of_ne (by simp)] at hopen
  sealedSeeds seedId old hold hdone := by
    by_cases heq : seedId = entry.1
    · subst heq
      rw [hentry, some_inj] at hold
      subst hold
      obtain ⟨current, hcurrent⟩ := exists_lookup_of_mem_iff (h.seeded entry.1) hentry
      refine ⟨_, lookup_sealSeed hcurrent cryptedSeed, rfl, rfl, hseed, ⟨nCreateTime, cryptedSeed⟩,
        ?_, rfl⟩
      rw [set_of_ne (by simp), set_same]
    · have hdone' : seedId ∉ keys (entry :: seeds) := not_mem_cons_of_ne_of_not_mem heq hdone
      obtain ⟨state, hstate, hencrypted, hempty, hsecret, record, hrecord, hsame⟩ :=
        h.sealedSeeds seedId old hold hdone'
      refine ⟨state, ?_, hencrypted, hempty, hsecret, record, ?_, hsame⟩
      · rw [lookup_sealSeed_of_ne heq, hstate]
      · rw [set_of_ne (by simp), set_of_ne (by simpa using heq), hrecord]
  open_seeds seedId hopen := by
    have hne : seedId ≠ entry.1 := by
      rintro rfl
      exact hopen (set_same ..)
    rw [set_of_ne (by simpa using hne), set_of_ne (by simp)] at hopen
    rcases mem_cons.1 (h.open_seeds seedId hopen) with heq | hmem
    · exact absurd heq hne
    · exact hmem

end SealProgress

/-- An unencrypted wallet between calls: the managers and their keys stand under their ids, every
seed is there in the clear, and the records of keys and seeds are those of the memory. A wallet for
an external signer has no keys. -/
structure CWallet.Unencrypted (wallet : CWallet) (records : Records) : Prop where
  keyed : ∀ id manager, wallet.spkManagers.lookup id = some manager → manager.getID = id
  kept : ∀ id manager, wallet.spkManagers.lookup id = some manager →
    KeysKept manager.mapKeys.entries
  plain : ∀ seedId state, wallet.pqhdSeeds.lookup seedId = some state →
    state.encrypted = false ∧ state.seed ≠ []
  keyRecords : ∀ id pubkey,
    records (.walletDescriptorKey id pubkey) = wallet.image (.walletDescriptorKey id pubkey)
  seedRecords : ∀ seedId, records (.pqhdSeed seedId) = wallet.image (.pqhdSeed seedId)
  signer : wallet.isWalletFlagSet walletFlagExternalSigner = true →
    ∀ id manager, wallet.spkManagers.lookup id = some manager → manager.mapKeys = ∅
  snapshot : wallet.walletFlagsTxnSnapshot = none

omit [Aes] in
lemma CWallet.Unencrypted.open_keys (h : m.Unencrypted d) {id : Uint256} {pubkey : CPubKey}
    (hopen : d (.walletDescriptorKey id pubkey) ≠ none) :
    ∃ manager, ⟨id, manager⟩ ∈ m.spkManagers.entries ∧
      ∃ entry ∈ manager.mapKeys.entries, entry.2.pubkey = pubkey := by
  rw [h.keyRecords, image] at hopen
  cases hmanager : m.spkManagers.lookup id with
  | none =>
    rw [hmanager] at hopen
    exact absurd rfl hopen
  | some manager =>
    rw [hmanager, bind_some, DescriptorScriptPubKeyMan.keyRecord] at hopen
    refine ⟨manager, mem_lookup_iff.1 hmanager, ?_⟩
    obtain ⟨keydata, hkeydata⟩ := ne_none_iff_exists'.1 hopen
    obtain ⟨key, hkey, -⟩ := map_eq_some_iff.1 hkeydata
    obtain ⟨hlookup, hpubkey⟩ := filter_eq_some_iff.1 hkey
    exact ⟨⟨_, key⟩, mem_lookup_iff.1 hlookup, of_decide_eq_true hpubkey⟩

omit [Aes] in
lemma CWallet.Unencrypted.open_seeds (h : m.Unencrypted d)
    (hopen : d (.pqhdSeed seedId) ≠ none) : seedId ∈ m.pqhdSeeds.entries.keys := by
  rw [h.seedRecords, image] at hopen
  cases hstate : m.pqhdSeeds.lookup seedId with
  | none =>
    rw [hstate] at hopen
    exact absurd rfl hopen
  | some state => exact mem_keys_of_mem (mem_lookup_iff.1 hstate)

lemma SealProgress.initial (h : m.Unencrypted d) (masterKey : Bytes) (nID : Nat)
    (stored : CMasterKey) :
    SealProgress masterKey nID stored m m.spkManagers.entries m.pqhdSeeds.entries
      (d.set (.masterKey nID) (some stored)) m where
  same := rfl
  master := set_same ..
  managed _ := Iff.rfl
  seeded _ := .rfl
  sealedKeys _ _ hold hdone := absurd (mem_keys_of_mem (mem_lookup_iff.1 hold)) hdone
  open_keys _ _ hopen := h.open_keys hopen
  sealedSeeds _ _ hold hdone := absurd (mem_keys_of_mem (mem_lookup_iff.1 hold)) hdone
  open_seeds _ hopen := h.open_seeds hopen

lemma encryptManagers_deferred (h : m.Unencrypted start)
    {seeds : List ((_ : Uint256) × PQHDSeedState)}
    (entries : List (Sigma fun _ : Uint256 => DescriptorScriptPubKeyMan))
    (hentries : entries ⊆ m.spkManagers.entries)
    (hprogress : SealProgress masterKey nID stored m entries seeds work (publish m)) :
    Triple (Deferred m d work publish) (encryptManagers masterKey entries) (fun done => cond done
        (Deferring m d fun work' publish' =>
          SealProgress masterKey nID stored m [] seeds work' (publish' m))
        (Deferring m d fun _ _ => True)) R := by
  induction entries generalizing work publish with
  | nil => exact .pure fun s hs => ⟨work, publish, hs, hprogress⟩
  | cons entry others ih =>
    have hlookup : m.spkManagers.lookup entry.1 = some entry.2 :=
      mem_lookup_iff.2 (hentries mem_cons_self)
    have hid : entry.2.getID = entry.1 := h.keyed _ _ hlookup
    apply Triple.branch (encrypt_deferred entry.2 (h.kept _ _ hlookup))
    · rintro s ⟨work', publish', hdeferred, hseals, cryptedKeys, rfl, hsealed⟩
      rw [hid] at hsealed hdeferred
      exact ih (fun other hother => hentries (mem_cons_of_mem _ hother))
        (hprogress.manager hlookup hseals hsealed) s hdeferred
    · exact .pure fun s hs => hs

lemma encryptSeeds_deferred (h : m.Unencrypted start)
    (entries : List (Sigma fun _ : Uint256 => PQHDSeedState))
    (hentries : entries ⊆ m.pqhdSeeds.entries)
    (hprogress : SealProgress masterKey nID stored m [] entries work (publish m)) :
    Triple (Deferred m d work publish) (encryptSeeds masterKey entries) (fun done => cond done
        (Deferring m d fun work' publish' => SealProgress masterKey nID stored m [] [] work'
          (publish' m))
        (Deferring m d fun _ _ => True)) R := by
  induction entries generalizing work publish with
  | nil => exact .pure fun s hs => ⟨work, publish, hs, hprogress⟩
  | cons entry others ih =>
    have hlookup : m.pqhdSeeds.lookup entry.1 = some entry.2 :=
      mem_lookup_iff.2 (hentries mem_cons_self)
    obtain ⟨hplain, hseed⟩ := h.plain _ _ hlookup
    unfold encryptSeeds
    rw [hplain, if_neg nofun]
    cases hencrypt : encryptSecret masterKey entry.2.seed entry.1 with
    | none => exact .pure fun s hs => ⟨_, _, hs, trivial⟩
    | some cryptedSeed =>
      refine .branch (writeIC_deferred _ _) ?_ (.pure fun s hs => ⟨_, _, hs, trivial⟩)
      refine .branch (eraseIC_deferred _) ?_ (.pure fun s hs => ⟨_, _, hs, trivial⟩)
      refine .bind (.register_deferred fun _ => rfl) fun _ => ?_
      exact ih (fun other hother => hentries (mem_cons_of_mem _ hother))
        (hprogress.seed hlookup (decryptSecret_encryptSecret hseed hencrypt) entry.2.createTime)

lemma encryptSecrets_outside (h : m.Unencrypted d) (nID : Nat) (stored : CMasterKey)
    (masterKey : Bytes) :
    Triple (Outside m d) (encryptSecrets nID stored masterKey) (fun done => cond done
        (fun s => ∃ records wallet, SealProgress masterKey nID stored m [] [] records wallet ∧
          Outside wallet records s)
        (Outside m d)) (fun e s => e = .terminated ∧ s.database = d) := by
  refine (Triple.runWithinTxn_deferring (c := fun _ => False) (Q := fun work publish =>
    SealProgress masterKey nID stored m [] [] work (publish m)) ?_ fun _ _ =>
      False.elim).weaken ?_ ?_
  · refine .branch (writeIC_deferred _ _) ?_ (.pure fun s hs => ⟨_, _, hs, trivial⟩)
    refine .read fun session hs => ?_
    rw [hs.memory]
    refine .branch (encryptManagers_deferred h m.spkManagers.entries (Subset.refl _)
      (SealProgress.initial h masterKey nID stored)) ?_ ?_
    · rintro t ⟨work, publish, hdeferred, hprogress⟩
      exact encryptSeeds_deferred h m.pqhdSeeds.entries (Subset.refl _) hprogress t hdeferred
    · exact .pure fun t ht => ht
  · rintro (_ | _) s hs
    · exact hs
    · obtain ⟨work, publish, hprogress, houtside⟩ := hs
      exact ⟨work, publish m, hprogress, houtside⟩
  · rintro e s (⟨⟨⟩, -⟩ | ⟨hend, -, hdatabase⟩)
    exact ⟨hend, hdatabase⟩

/-- What a wallet held before stands only encrypted in the memory, and the master key it is
encrypted with is found with the passphrase. -/
structure CWallet.Secured (wallet : CWallet) (passphrase masterKey : Bytes) (before : CWallet) :
    Prop where
  plainKeys : ∀ id manager, wallet.spkManagers.lookup id = some manager → manager.mapKeys = ∅
  keys : ∀ id old, before.spkManagers.lookup id = some old → ∀ entry ∈ old.mapKeys.entries,
    ∃ manager cryptedSecret, wallet.spkManagers.lookup id = some manager ∧
      manager.mapCryptedKeys.lookup entry.1 = some (entry.2.pubkey, cryptedSecret) ∧
      decryptSecret masterKey cryptedSecret entry.2.pubkey.getHash = some entry.2.keydata
  plainSeeds : ∀ seedId state, wallet.pqhdSeeds.lookup seedId = some state →
    state.encrypted = true ∧ state.seed = []
  seeds : ∀ seedId old, before.pqhdSeeds.lookup seedId = some old →
    ∃ state, wallet.pqhdSeeds.lookup seedId = some state ∧
      decryptSecret masterKey state.cryptedSeed seedId = some old.seed
  master : ∃ nID stored, wallet.mapMasterKeys.lookup nID = some stored ∧
    decryptMasterKey passphrase stored = some masterKey

/-- What a wallet held before stands only encrypted in the database, and no record of a key or a
seed is left in the clear. -/
structure Records.Secured (passphrase masterKey : Bytes) (before : CWallet) (records : Records) :
    Prop where
  plainKeys : ∀ id pubkey, records (.walletDescriptorKey id pubkey) = none
  keys : ∀ id old, before.spkManagers.lookup id = some old → ∀ entry ∈ old.mapKeys.entries,
    ∃ cryptedSecret, records (.walletDescriptorCKey id entry.2.pubkey) = some cryptedSecret ∧
      decryptSecret masterKey cryptedSecret entry.2.pubkey.getHash = some entry.2.keydata
  plainSeeds : ∀ seedId, records (.pqhdSeed seedId) = none
  seeds : ∀ seedId old, before.pqhdSeeds.lookup seedId = some old →
    ∃ record, records (.pqhdCryptedSeed seedId) = some record ∧
      decryptSecret masterKey record.cryptedSeed seedId = some old.seed
  master : ∃ nID stored, records (.masterKey nID) = some stored ∧
    decryptMasterKey passphrase stored = some masterKey

/-- A manager of the wallet before that had no keys, or none. -/
def CWallet.Keyless (before : CWallet) (id : Uint256) : Prop :=
  ∀ old, before.spkManagers.lookup id = some old → old.mapKeys = ∅

section

variable (h : SealProgress masterKey nID stored before [] [] records wallet)
    (hmaster : decryptMasterKey passphrase stored = some masterKey)
include h hmaster

lemma SealProgress.secured (maxId : Nat) : Secured { wallet with
      nMasterKeyMaxID := maxId
      mapMasterKeys := wallet.mapMasterKeys.insert nID stored } passphrase masterKey before where
  plainKeys id manager hmanager := by
    obtain ⟨old, hold⟩ := exists_lookup_of_mem_iff (h.managed id).symm hmanager
    obtain ⟨found, hfound, hempty, -⟩ := h.sealedKeys id old hold not_mem_nil
    have hsame : manager = found := some_inj.1 (hmanager.symm.trans hfound)
    rw [hsame, hempty]
  keys id old hold entry hentry := by
    obtain ⟨manager, hmanager, -, hkeys⟩ := h.sealedKeys id old hold not_mem_nil
    obtain ⟨cryptedSecret, hlookup, hsecret, -⟩ := hkeys entry hentry
    exact ⟨manager, cryptedSecret, hmanager, hlookup, hsecret⟩
  plainSeeds seedId state hstate := by
    obtain ⟨old, hold⟩ := exists_lookup_of_mem_iff (h.seeded seedId).symm hstate
    obtain ⟨found, hfound, hencrypted, hempty, -⟩ := h.sealedSeeds seedId old hold not_mem_nil
    have hsame : state = found := some_inj.1 (hstate.symm.trans hfound)
    rw [hsame]
    exact ⟨hencrypted, hempty⟩
  seeds seedId old hold := by
    obtain ⟨state, hstate, -, -, hsecret, -⟩ := h.sealedSeeds seedId old hold not_mem_nil
    exact ⟨state, hstate, hsecret⟩
  master := ⟨nID, stored, lookup_insert _, hmaster⟩

lemma SealProgress.secured_records : records.Secured passphrase masterKey before where
  plainKeys id pubkey := by
    by_contra hopen
    obtain ⟨manager, hmanager, -⟩ := h.open_keys id pubkey hopen
    cases hmanager
  keys id old hold entry hentry := by
    obtain ⟨manager, -, -, hkeys⟩ := h.sealedKeys id old hold not_mem_nil
    obtain ⟨cryptedSecret, -, hsecret, hrecord⟩ := hkeys entry hentry
    exact ⟨cryptedSecret, hrecord, hsecret⟩
  plainSeeds seedId := by
    by_contra hopen
    cases h.open_seeds seedId hopen
  seeds seedId old hold := by
    obtain ⟨state, -, -, -, hsecret, record, hrecord, hsame⟩ :=
      h.sealedSeeds seedId old hold not_mem_nil
    exact ⟨record, hrecord, by rw [hsame, hsecret]⟩
  master := ⟨nID, stored, h.master, hmaster⟩

end

/-- A record may be written that is not one of a secret of the wallet before. -/
lemma Records.Secured.set {key : DBKey} {value : key.Value}
    (hkind : key.ofSecrets → ∃ seedId ∉ before.pqhdSeeds, key = .pqhdCryptedSeed seedId)
    (h : records.Secured passphrase masterKey before) :
    Secured passphrase masterKey before (records.set key (some value)) := by
  have hother (other : DBKey) (hsecret : other.ofSecrets)
      (hold : ∀ seedId, other = .pqhdCryptedSeed seedId → seedId ∈ before.pqhdSeeds) :
      records.set key (some value) other = records other := by
    apply set_of_ne
    rintro rfl
    obtain ⟨seedId, hnew, heq⟩ := hkind hsecret
    exact hnew (hold seedId heq)
  refine ⟨fun id pubkey => ?_, fun id old hold entry hentry => ?_, fun seedId => ?_,
    fun seedId old hold => ?_, ?_⟩
  · rw [hother _ rfl (by simp), h.plainKeys]
  · rw [hother _ rfl (by simp)]
    exact h.keys id old hold entry hentry
  · rw [hother _ rfl (by simp), h.plainSeeds]
  · have hmem : seedId ∈ before.pqhdSeeds := lookup_isSome.1 (by rw [hold]; rfl)
    rw [hother _ rfl (by rintro _ ⟨⟩; exact hmem)]
    exact h.seeds seedId old hold
  · obtain ⟨nID, stored, hrecord, hmaster⟩ := h.master
    exact ⟨nID, stored, (hother _ rfl (by simp)).trans hrecord, hmaster⟩

namespace CWallet.Secured

variable {changed : CWallet}

variable (h : wallet.Secured passphrase masterKey before)
include h

lemma managers
    (hplain : ∀ id manager, changed.spkManagers.lookup id = some manager → manager.mapKeys = ∅)
    (hkept : ∀ id, ¬before.Keyless id → ∀ manager, wallet.spkManagers.lookup id = some manager →
      ∃ manager', changed.spkManagers.lookup id = some manager' ∧
        manager'.mapCryptedKeys = manager.mapCryptedKeys)
    (hseeds : changed.pqhdSeeds = wallet.pqhdSeeds)
    (hmaster : changed.mapMasterKeys = wallet.mapMasterKeys) :
    changed.Secured passphrase masterKey before where
  plainKeys := hplain
  keys id old hold entry hentry := by
    have hkeys : ¬before.Keyless id := by
      intro hkeyless
      rw [hkeyless old hold] at hentry
      cases hentry
    obtain ⟨manager, cryptedSecret, hmanager, hlookup, hsecret⟩ := h.keys id old hold entry hentry
    obtain ⟨manager', hmanager', hsame⟩ := hkept id hkeys manager hmanager
    exact ⟨manager', cryptedSecret, hmanager', by rw [hsame, hlookup], hsecret⟩
  plainSeeds := by
    rw [hseeds]
    exact h.plainSeeds
  seeds := by
    rw [hseeds]
    exact h.seeds
  master := by
    rw [hmaster]
    exact h.master

lemma other
    (hmanagers : changed.spkManagers = wallet.spkManagers)
    (hseeds : changed.pqhdSeeds = wallet.pqhdSeeds)
    (hmaster : changed.mapMasterKeys = wallet.mapMasterKeys) :
    changed.Secured passphrase masterKey before := by
  apply h.managers
  · rw [hmanagers]
    exact h.plainKeys
  · intro id _ manager hmanager
    exact ⟨manager, by rw [hmanagers, hmanager], rfl⟩
  · exact hseeds
  · exact hmaster

lemma modifyManager (id : Uint256) {f : DescriptorScriptPubKeyMan → DescriptorScriptPubKeyMan}
    (hplain : ∀ manager, manager.mapKeys = ∅ → (f manager).mapKeys = ∅)
    (hkept : before.Keyless id ∨ ∀ manager, (f manager).mapCryptedKeys = manager.mapCryptedKeys) :
    (wallet.modifyManager id f).Secured passphrase masterKey before := by
  refine h.managers (fun other manager hmanager => ?_) (fun other hkeys manager hmanager =>
    ?_) rfl rfl
  · by_cases heq : other = id
    · subst heq
      cases hfound : wallet.spkManagers.lookup other with
      | none =>
        rw [CWallet.modifyManager, hfound, Option.elim_none, hfound] at hmanager
        cases hmanager
      | some found =>
        rw [lookup_modifyManager hfound, some_inj] at hmanager
        rw [← hmanager]
        exact hplain found (h.plainKeys other found hfound)
    · rw [lookup_modifyManager_of_ne heq] at hmanager
      exact h.plainKeys other manager hmanager
  · by_cases heq : other = id
    · subst heq
      refine ⟨f manager, lookup_modifyManager hmanager, ?_⟩
      rcases hkept with hkeyless | hsame
      · exact absurd hkeyless hkeys
      · exact hsame manager
    · exact ⟨manager, by rw [lookup_modifyManager_of_ne heq, hmanager], rfl⟩

lemma insertManager {id : Uint256} {manager : DescriptorScriptPubKeyMan}
    (hkeyless : before.Keyless id) (hplain : manager.mapKeys = ∅) :
    Secured { wallet with spkManagers := wallet.spkManagers.insert id manager }
      passphrase masterKey before := by
  refine h.managers (fun other found hfound => ?_) (fun other hkeys found hfound => ?_) rfl rfl
  · by_cases heq : other = id
    · subst heq
      rw [lookup_insert, some_inj] at hfound
      rw [← hfound, hplain]
    · rw [lookup_insert_ne heq] at hfound
      exact h.plainKeys other found hfound
  · have hne : other ≠ id := by
      rintro rfl
      exact hkeys hkeyless
    exact ⟨found, by rw [lookup_insert_ne hne, hfound], rfl⟩

lemma loadPQHDCryptedSeed (seedId : Uint256) (seed : PQHDCryptedSeed) :
    ((wallet.loadPQHDCryptedSeed seedId seed).getD wallet).Secured passphrase masterKey before := by
  unfold CWallet.loadPQHDCryptedSeed
  split
  · rw [getD_some, withSeed]
    refine ⟨h.plainKeys, h.keys, fun other state hstate => ?_, fun other old hold => ?_, h.master⟩
    · rw [lookup_emplace] at hstate
      rcases or_eq_some_iff.1 hstate with hfound | ⟨-, hnew⟩
      · exact h.plainSeeds other state hfound
      · split at hnew
        · cases hnew
          exact ⟨rfl, rfl⟩
        · cases hnew
    · obtain ⟨state, hstate, hsecret⟩ := h.seeds other old hold
      refine ⟨state, ?_, hsecret⟩
      rw [lookup_emplace, hstate]
      rfl
  · exact h

end CWallet.Secured

end

section

variable [Crypto] [Aes]

/-- The wallet is one for an external signer only if it was one before, also where its flags are
restored. -/
structure CWallet.SignedAs (wallet before : CWallet) : Prop where
  now : wallet.isWalletFlagSet walletFlagExternalSigner = true →
    before.isWalletFlagSet walletFlagExternalSigner = true
  restored : ∀ flags, wallet.walletFlagsTxnSnapshot = some flags →
    flags &&& walletFlagExternalSigner ≠ 0 → before.isWalletFlagSet walletFlagExternalSigner = true

/-- The wallet during the rest of `EncryptWallet`. -/
structure CWallet.Encrypted (passphrase masterKey : Bytes) (before : CWallet) (wallet : CWallet) :
    Prop where
  secured : wallet.Secured passphrase masterKey before
  signed : wallet.SignedAs before

omit [Crypto] [Aes] in
lemma external_of_unset {flags : UInt64}
    (h : flags &&& ~~~walletFlagBlankWallet &&& walletFlagExternalSigner ≠ 0) :
    flags &&& walletFlagExternalSigner ≠ 0 := by
  intro hzero
  apply h
  rw [UInt64.and_assoc, UInt64.and_comm _ walletFlagExternalSigner, ← UInt64.and_assoc, hzero,
    UInt64.zero_and]

lemma Encrypted.indifferent : Indifferent (Encrypted passphrase masterKey before) where
  blank _ other h hother := by
    refine ⟨h.secured.other rfl rfl rfl, fun hflag => ?_, h.signed.restored⟩
    apply hother.signed.now
    exact decide_eq_true (external_of_unset (of_decide_eq_true hflag))
  snapshot _ h := by
    refine ⟨h.secured.other rfl rfl rfl, h.signed.now, ?_⟩
    rintro _ ⟨⟩ hflag
    exact h.signed.now (decide_eq_true hflag)
  committed _ h := by
    refine ⟨h.secured.other rfl rfl rfl, h.signed.now, ?_⟩
    rintro _ ⟨⟩
  restored _ flags h hsnapshot := by
    refine ⟨h.secured.other rfl rfl rfl, fun hflag => ?_, ?_⟩
    · exact h.signed.restored flags hsnapshot (of_decide_eq_true hflag)
    · rintro _ ⟨⟩
  active _ _ h := ⟨h.secured.other rfl rfl rfl, h.signed.now, h.signed.restored⟩

lemma Secured.keepsOthers :
    KeepsOthers fun records => records.Secured passphrase masterKey before :=
  fun _ _ _ hkind h => h.set fun hsecret => absurd (hkind.symm.trans hsecret) nofun

variable (h : CWallet.Encrypted passphrase masterKey before wallet)

include h in
lemma CWallet.Encrypted.modifyManager (id : Uint256)
    {f : DescriptorScriptPubKeyMan → DescriptorScriptPubKeyMan}
    (hplain : ∀ manager, manager.mapKeys = ∅ → (f manager).mapKeys = ∅)
    (hkept : before.Keyless id ∨ ∀ manager, (f manager).mapCryptedKeys = manager.mapCryptedKeys) :
    Encrypted passphrase masterKey before (wallet.modifyManager id f) :=
  ⟨h.secured.modifyManager id hplain hkept, h.signed.now, h.signed.restored⟩

lemma Encrypted.relockable : Relockable (Encrypted passphrase masterKey before) where
  confirmed _ id h := h.modifyManager id (fun _ hplain => hplain) (.inr fun _ => rfl)
  invalidated _ id h := h.modifyManager id (fun _ hplain => hplain) (.inr fun _ => rfl)
  master _ _ h := ⟨h.secured.other rfl rfl rfl, h.signed.now, h.signed.restored⟩

variable {manager : DescriptorScriptPubKeyMan}

lemma rollbackListener_keeps (hplain : manager.mapKeys = ∅)
    (hkeyless : before.Keyless manager.getID) :
    manager.rollbackListener.Keeps (Encrypted passphrase masterKey before) := by
  intro wallet h
  refine ⟨h.modifyManager manager.getID (fun _ hplain => hplain) (.inr fun _ => rfl), ?_⟩
  exact h.modifyManager manager.getID (fun _ _ => hplain) (.inl hkeyless)

lemma CWallet.Secured.isCrypted (h : wallet.Secured passphrase masterKey before) :
    wallet.isCrypted := by
  obtain ⟨nID, stored, hlookup, -⟩ := h.master
  unfold CWallet.isCrypted
  rw [Bool.not_eq_true', isEmpty_eq_false_iff]
  exact ne_nil_of_mem (mem_lookup_iff.1 hlookup)

include h in
lemma CWallet.Encrypted.loadPQHDCryptedSeed (seedId : Uint256) (seed : PQHDCryptedSeed) :
    Encrypted passphrase masterKey before ((wallet.loadPQHDCryptedSeed seedId seed).getD
      wallet) := by
  refine ⟨h.secured.loadPQHDCryptedSeed seedId seed, ?_⟩
  unfold CWallet.loadPQHDCryptedSeed
  split
  · exact ⟨h.signed.now, h.signed.restored⟩
  · exact h.signed

/-- Programs that keep every secret encrypted. -/
abbrev KeepsSecured (passphrase masterKey : Bytes) (before : CWallet) {α : Type}
    (x : WalletAction α)
    (V : α → Prop) : Prop :=
  Upholds (CWallet.Encrypted passphrase masterKey before)
    (fun records : Records => records.Secured passphrase masterKey before) x V

lemma storeOwnSeed_secured (now : Nat) (masterSeed : MasterSeed)
    (hnew : seedId ∉ before.pqhdSeeds) :
    KeepsSecured passphrase masterKey before (storeOwnSeed now seedId masterSeed) fun _ =>
      True := by
  apply Upholds.bind .get
  intro session hsession
  apply Upholds.ite
  · intro _
    refine .ite (fun _ => .throw_bind) fun _ => ?_
    cases encryptSecret session.memory.vMasterKey masterSeed.1 seedId with
    | none => exact .throw
    | some cryptedSeed =>
      refine .check (writeIC_upholds fun records h => h.set fun _ => ⟨seedId, hnew, rfl⟩) ?_
        .throw_bind
      exact .modifyMemory fun wallet h => h.loadPQHDCryptedSeed seedId _
  · intro hcrypted
    exact absurd hsession.memory.secured.isCrypted hcrypted

lemma loadNewPolicy_secured (policy : PQHDPolicy) :
    KeepsSecured passphrase masterKey before (loadNewPolicy (some policy)) fun _ => True := by
  unfold loadNewPolicy
  rw [elim_some]
  cases loadPQHDPolicy policy with
  | error what => exact .throw
  | ok policy =>
    exact .modifyMemory fun wallet h =>
      ⟨h.secured.other rfl rfl rfl, h.signed.now, h.signed.restored⟩

variable [PqhdKeys]

lemma setupActive_secured (error : String) (hplain : manager.mapKeys = ∅)
    (hkeyless : before.Keyless manager.getID) (type : OutputType) (internal : Bool) :
    KeepsSecured passphrase masterKey before (setupActive error manager type internal) fun _ =>
      True := by
  apply Upholds.bind (setupDescriptor_upholds Encrypted.indifferent Secured.keepsOthers manager
    (rollbackListener_keeps hplain hkeyless))
  rintro (_ | topped) htopped
  · exact .throw
  · obtain ⟨hid, hkeys, -⟩ := htopped topped rfl
    refine .bind (.modifyMemory fun wallet h => ?_) fun _ _ =>
      addActiveScriptPubKeyManWithDb_upholds Encrypted.indifferent Secured.keepsOthers _ _ _
    exact ⟨h.secured.insertManager (by rwa [hid]) (by rw [hkeys, hplain]), h.signed.now,
      h.signed.restored⟩

variable [KeyCheck] [DescriptorHash]

omit [Crypto] [Aes] [PqhdKeys] [KeyCheck] in
lemma generatePQHDWalletDescriptor_eq_ok {params : Params} {now : Nat} {policy : PQHDPolicy}
    {target : Bool × OutputType} {height : Int} {wDesc : WalletDescriptor}
    (h : generatePQHDWalletDescriptor params now (policy.seedOf target.1) (policy.schemeOf target.1)
      target.2
      target.1 height = .ok wDesc) :
    ∃ desc, policy.descriptorOf target = some desc ∧ wDesc.id = DescriptorHash.id desc ∧
      wDesc.cache = ∅ := by
  unfold generatePQHDWalletDescriptor at h
  cases hscheme : schemeFromPrefix (policy.schemeOf target.1) with
  | none =>
    rw [hscheme] at h
    cases h
  | some scheme =>
    cases hallowed : isSchemeAllowedAtHeight scheme params.nAuxpowStartHeight height <;>
      cases hactive : (target.2 = .bech32pq && height < params.nAuxpowStartHeight : Bool) <;>
      simp only [hscheme, hallowed, hactive, Bool.not_true, Bool.not_false, Bool.false_eq_true,
        if_true,
        if_false] at h <;>
      try cases h
    unfold PQHDPolicy.descriptorOf
    cases hdesc : policyDescriptor (policy.seedOf target.1) (policy.schemeOf target.1) target.2
      target.1 with
    | none =>
      rw [hdesc] at h
      cases h
    | some desc =>
      rw [hdesc] at h
      cases h
      exact ⟨desc, rfl, rfl, rfl⟩

/-- The seed that is drawn is new: neither its id nor, among the managers with keys, one of its
descriptors is there. -/
structure EncryptionInput.Fresh (input : EncryptionInput) (wallet : CWallet) : Prop where
  seed : PqhdKeys.seedID input.masterSeed.1 ∉ wallet.pqhdSeeds
  descriptors : ∀ target desc,
    (ownPolicy (PqhdKeys.seedID input.masterSeed.1)).descriptorOf target = some desc →
      wallet.Keyless (DescriptorHash.id desc)

omit [PqhdKeys] [DescriptorHash] in
lemma acceptMasterKey_secured (hempty : manager.Empty) :
    KeepsSecured passphrase masterKey before (acceptMasterKey manager) fun _ => True := by
  refine (acceptMasterKey_new hempty).weaken ?_ fun _ _ => id
  rintro (_ | _) s hs
  · exact hs.elim
  · exact ⟨hs, trivial⟩

variable (params : Params)

lemma setupOwnTarget_secured (now : Nat) {policy : PQHDPolicy}
    (hfresh : ∀ target desc, policy.descriptorOf target = some desc →
      before.Keyless (DescriptorHash.id desc)) (target : Bool × OutputType) :
    KeepsSecured passphrase masterKey before (setupOwnTarget params now policy target) fun _ =>
      True := by
  apply Upholds.bind .get
  intro session _
  refine .ite (fun _ => .pure trivial) fun _ => ?_
  cases hgenerate : generatePQHDWalletDescriptor params now (policy.seedOf target.1)
      (policy.schemeOf target.1) target.2 target.1 session.memory.targetHeightForOutputs with
  | error stop => exact .throw
  | ok wDesc =>
    obtain ⟨desc, hdesc, hid, hcache⟩ := generatePQHDWalletDescriptor_eq_ok hgenerate
    refine .ite (fun _ => .throw_bind) fun _ => ?_
    refine .check (acceptMasterKey_secured ⟨hcache, rfl, rfl⟩) ?_ .throw_bind
    apply setupActive_secured _ rfl
    change before.Keyless wDesc.id
    rw [hid]
    exact hfresh target desc hdesc

variable {input : EncryptionInput}

lemma setupOwnDescriptorScriptPubKeyMans_secured (hfresh : input.Fresh before) :
    KeepsSecured passphrase masterKey before
      (setupOwnDescriptorScriptPubKeyMans params input.now input.masterSeed) fun _ => True := by
  apply Upholds.bind .get
  intro session _
  refine .ite (fun _ => .throw_bind) fun _ => ?_
  apply Upholds.bind (storeOwnSeed_secured input.now input.masterSeed hfresh.seed)
  intro _ _
  refine .check (Secured.keepsOthers.writeIC _ rfl) ?_ .throw_bind
  apply Upholds.bind (loadNewPolicy_secured _)
  intro _ _
  apply Upholds.forM
  exact fun target _ => setupOwnTarget_secured params input.now hfresh.descriptors target

section

variable (hkeyless : ∀ id, before.Keyless id)

include hkeyless

omit [KeyCheck]

section

variable (now : Nat) (internal : Bool) (imported : List OutputType)

lemma setupSignerDescriptor_secured (desc : Descriptor) :
    KeepsSecured passphrase masterKey before (setupSignerDescriptor now internal imported desc)
      fun _ => True := by
  refine .ite (fun _ => .throw_bind) fun _ => ?_
  cases desc.getOutputType with
  | none => exact .pure trivial
  | some outType =>
    refine .ite (fun _ => .throw_bind) fun _ => ?_
    apply Upholds.bind .get
    intro session _
    apply Upholds.bind (setupActive_secured _ rfl (hkeyless _) _ _)
    exact fun _ _ => .pure trivial

lemma setupSignerText_secured (text : SignerDescriptor) :
    KeepsSecured passphrase masterKey before (setupSignerText now internal imported text)
      fun _ => True := by
  cases text with
  | invalid descStr descError => exact .throw
  | parsed hasKeys descs =>
    refine .ite (fun _ => .throw_bind) fun _ => ?_
    apply Upholds.foldlM _ _ trivial
    exact fun imported desc _ _ => setupSignerDescriptor_secured hkeyless now internal imported desc

end

lemma setupSignerKind_secured (now : Nat) (descriptorVals : Bool → Option (List SignerDescriptor))
    (internal : Bool) :
    KeepsSecured passphrase masterKey before (setupSignerKind now descriptorVals internal)
      fun _ => True := by
  unfold setupSignerKind
  cases descriptorVals internal with
  | none => exact .throw
  | some texts =>
    apply Upholds.bind (.foldlM (W := fun _ => True) texts
      (fun imported text _ _ => setupSignerText_secured hkeyless now internal imported text)
        trivial)
    intro imported _
    exact .ite (fun _ => .throw) fun _ => .pure trivial

end

lemma setupDescriptorScriptPubKeyMans_secured (hfresh : input.Fresh before)
    (hsigner : before.isWalletFlagSet walletFlagExternalSigner → ∀ id, before.Keyless id) :
    KeepsSecured passphrase masterKey before
      (setupDescriptorScriptPubKeyMans params input.now input.masterSeed input.signer) fun _ =>
        True := by
  apply Upholds.bind .get
  intro session hsession
  apply Upholds.ite
  · intro _
    exact .check (.runWithinTxn (.bind (setupOwnDescriptorScriptPubKeyMans_secured params hfresh)
      fun _ _ => .pure trivial)) (.pure trivial) .throw
  · intro hexternal
    have hkeyless : ∀ id, before.Keyless id := by
      apply hsigner
      apply hsession.memory.signed.now
      simpa using hexternal
    cases input.signer with
    | error what => exact .throw
    | ok descriptorVals =>
      apply Upholds.withBatch
      refine .check .txnBegin ?_ .throw_bind
      apply Upholds.bind (.forM [false, true]
        fun internal _ => setupSignerKind_secured hkeyless input.now descriptorVals internal)
      intro _ _
      exact .check .txnCommit (.pure trivial) .throw

lemma finishEncryption_secured (strWalletPassphrase : Bytes) (hfresh : input.Fresh before)
    (hsigner : before.isWalletFlagSet walletFlagExternalSigner → ∀ id, before.Keyless id) :
    KeepsSecured passphrase masterKey before (finishEncryption params strWalletPassphrase input)
      fun done => done := by
  have hlock : KeepsSecured passphrase masterKey before (do let _ ← lockWallet; return true)
      fun done => done :=
    .bind (lockWallet_upholds Encrypted.relockable) fun _ _ => .pure rfl
  apply Upholds.bind (lockWallet_upholds Encrypted.relockable)
  intro _ _
  refine .check (unlock_upholds Encrypted.relockable strWalletPassphrase input.thorough) ?_
    .throw_bind
  apply Upholds.bind .get
  intro session _
  apply Upholds.ite
  · intro _
    apply Upholds.bind (setupDescriptorScriptPubKeyMans_secured params hfresh hsigner)
    exact fun _ _ => hlock
  · exact fun _ => hlock

/-- Every secret the wallet held before stands encrypted in the memory and in the database, and
nowhere in the clear. -/
def SecretsEncrypted (passphrase masterKey : Bytes) (before : CWallet)
    (s : Session CWallet Records) : Prop :=
  s.memory.Secured passphrase masterKey before ∧ s.database.Secured passphrase masterKey before

omit [KeyCheck] [DescriptorHash] [PqhdKeys] in
lemma SealProgress.upheld
    (h : SealProgress masterKey nID stored before [] [] records wallet)
    (hmaster : decryptMasterKey passphrase stored = some masterKey) (maxId : Nat)
    (hsnapshot : before.walletFlagsTxnSnapshot = none) {s : Session CWallet Records}
    (hs : Outside { wallet with
      nMasterKeyMaxID := maxId
      mapMasterKeys := wallet.mapMasterKeys.insert nID stored } records s) :
    Upheld (Encrypted passphrase masterKey before)
      (fun records => records.Secured passphrase masterKey before) s := by
  apply Upheld.of_outside _ (h.secured_records hmaster) hs
  refine ⟨h.secured hmaster maxId, fun hflag => ?_, fun flags hflags => ?_⟩
  · rw [h.same] at hflag
    exact hflag
  · have hnone : wallet.walletFlagsTxnSnapshot = none := by
      rw [h.same]
      exact hsnapshot
    rw [hnone] at hflags
    cases hflags

end

section

variable [Crypto]

/-- A Falcon-512 key. -/
def sampleSecret : CKey := ⟨[1, 2, 3], 7 :: List.replicate 897 0, Or.inr (by decide +kernel)⟩

/-- A manager with a key. -/
def keyedManager : DescriptorScriptPubKeyMan :=
  { DescriptorScriptPubKeyMan.new ⟨⟨.pkh (.const 0 sampleSecret.pubkey), 0, 0, 0, 1⟩, 5, ∅⟩ 1 with
    mapKeys := AList.singleton sampleSecret.pubkey.getID sampleSecret }

/-- A wallet with a key and a seed. -/
def keyedWallet : CWallet :=
  { CWallet.blank with
    spkManagers := AList.singleton 5 keyedManager
    pqhdSeeds := AList.singleton 1 ⟨0, false, List.replicate 32 4, []⟩
    pqhdSeedIds := singleton 1 }

lemma unencrypted_keyedWallet : keyedWallet.Unencrypted keyedWallet.image where
  keyed id manager h := by
    obtain ⟨⟩ := mem_singleton.1 (mem_lookup_iff.1 h)
    rfl
  kept id manager h := by
    obtain ⟨⟩ := mem_singleton.1 (mem_lookup_iff.1 h)
    intro entry hentry
    obtain rfl := mem_singleton.1 hentry
    exact ⟨rfl, cons_ne_nil _ _⟩
  plain seedId state h := by
    obtain ⟨⟩ := mem_singleton.1 (mem_lookup_iff.1 h)
    exact ⟨rfl, by decide⟩
  keyRecords _ _ := rfl
  seedRecords _ := rfl
  signer h := absurd (show blank.isWalletFlagSet walletFlagExternalSigner = true from h) (by decide)
  snapshot := rfl

end

/-- A draw whose seed the sample wallet does not have. -/
def sampleEncryption : EncryptionInput where
  plainMasterKey := ⟨List.replicate 32 1, rfl⟩
  vchSalt := List.replicate 8 2
  first := 1000
  second := 1000
  thorough _ := false
  now := 0
  masterSeed := ⟨List.replicate 32 3, rfl⟩
  signer := .error "restart tidecoind with -signer=<cmd>"

end Tidecoin
