import Tidecoin.Wallet.Policy

/-!
What setting up a descriptor leaves alone: the keys of its manager, the records of secrets, and
every property of the wallet that depends neither on its flags nor on which managers are active.
-/

namespace Tidecoin

open Lib CWallet

/-- The kinds of records that hold secrets and keys of secrets. -/
def DBKey.ofSecrets : DBKey → Bool
  | .walletDescriptorKey _ _ | .walletDescriptorCKey _ _ | .masterKey _ | .pqhdSeed _
  | .pqhdCryptedSeed _ => true
  | _ => false

/-- A manager with the id and the keys of another one. -/
structure DescriptorScriptPubKeyMan.SameKeys (manager other : DescriptorScriptPubKeyMan) :
    Prop where
  id : other.getID = manager.getID
  keys : other.mapKeys = manager.mapKeys
  cryptedKeys : other.mapCryptedKeys = manager.mapCryptedKeys

lemma DescriptorScriptPubKeyMan.SameKeys.trans {manager other last : DescriptorScriptPubKeyMan}
    (hfirst : manager.SameKeys other) (hsecond : other.SameKeys last) : manager.SameKeys last :=
  ⟨hsecond.id.trans hfirst.id, hsecond.keys.trans hfirst.keys,
    hsecond.cryptedKeys.trans hfirst.cryptedKeys⟩

variable [Crypto] [PqhdKeys]

/-- Records of other kinds than those of secrets do not matter. -/
def Records.KeepsOthers (Q : Records → Prop) : Prop :=
  ∀ (key : DBKey) (value : key.Value) (records : Records), key.ofSecrets = false → Q records →
    Q (records.set key (some value))

variable {P : CWallet → Prop} {Q : Records → Prop}

omit [Crypto] [PqhdKeys] in
lemma Records.KeepsOthers.writeIC (hothers : KeepsOthers Q) {key : DBKey} (value : key.Value)
    (hkind : key.ofSecrets = false) : Upholds P Q (writeIC key value) fun _ => True :=
  writeIC_upholds fun records hrecords => hothers key value records hkind hrecords

namespace DescriptorScriptPubKeyMan

omit [Crypto] [PqhdKeys] in
lemma registerMutationRollback_upholds (manager : DescriptorScriptPubKeyMan)
    (hlistener : manager.rollbackListener.Keeps P) :
    Upholds P Q manager.registerMutationRollback manager.SameKeys := by
  refine .check .hasActiveTxn ?_ .throw_bind
  refine .ite (fun _ => .pure ⟨rfl, rfl, rfl⟩) fun _ => ?_
  exact .bind (.registerTxnListener hlistener) fun _ _ => .pure ⟨rfl, rfl, rfl⟩

variable (hothers : Records.KeepsOthers Q)
include hothers

omit [Crypto] [PqhdKeys] in
lemma writeDescriptorCacheItems_upholds (descId : Uint256)
    (items : List (Sigma fun _ : Nat × Nat => CPubKey)) :
    Upholds P Q (writeDescriptorCacheItems descId items) fun _ => True := by
  induction items with
  | nil => exact .pure trivial
  | cons item items ih => exact .check (hothers.writeIC _ rfl) ih (.pure trivial)

variable (manager : DescriptorScriptPubKeyMan)

lemma topUpPosition_upholds (provider : SeedSource) (i : Int) :
    Upholds P Q (manager.topUpPosition provider i) fun result => ∀ topped ∈ result,
      manager.SameKeys topped := by
  unfold topUpPosition
  cases expandPosition manager.walletDescriptor provider i with
  | none => exact .pure (by simp)
  | some expanded =>
    obtain ⟨scriptsTemp, outKeys, tempCache⟩ := expanded
    dsimp only
    cases manager.walletDescriptor.cache.mergeAndDiff tempCache with
    | none => exact .throw
    | some merged =>
      refine .check (writeDescriptorCacheItems_upholds hothers _ _) (.pure ?_) .throw_bind
      rintro topped ⟨⟩
      exact ⟨rfl, rfl, rfl⟩

lemma topUpLoop_upholds (provider : SeedSource) (count : Nat) (i : Int)
    (manager : DescriptorScriptPubKeyMan) :
    Upholds P Q (topUpLoop provider count i manager) fun result => ∀ topped ∈ result,
      manager.SameKeys topped := by
  induction count generalizing i manager with
  | zero =>
    apply Upholds.pure
    rintro topped ⟨⟩
    exact ⟨rfl, rfl, rfl⟩
  | succ count ih =>
    apply Upholds.bind (topUpPosition_upholds hothers manager provider i)
    rintro (_ | next) hnext
    · exact .pure (by simp)
    · apply (ih (i + 1) next).weaken
      exact fun result hresult topped htopped => (hnext next rfl).trans (hresult topped htopped)

lemma topUpRange_upholds (provider : SeedSource) (newRangeEnd : Int) :
    Upholds P Q (manager.topUpRange provider newRangeEnd)
      fun result => ∀ topped ∈ result, manager.SameKeys topped := by
  apply Upholds.bind (topUpLoop_upholds hothers _ _ _ _)
  rintro (_ | next) hnext
  · exact .pure (by simp)
  · obtain ⟨hid, hkeys, hcrypted⟩ := hnext next rfl
    refine .check (hothers.writeIC _ rfl) ?_ .throw_bind
    refine .ite (fun _ => .throw_bind) fun _ => .pure ?_
    rintro topped ⟨⟩
    exact ⟨hid, hkeys, hcrypted⟩

lemma topUpWithDB_upholds [Aes]
    (hlistener : manager.rollbackListener.Keeps P) (size : Nat) (expandRange : Bool) :
    Upholds P Q (manager.topUpWithDB size expandRange)
      fun result => ∀ topped ∈ result, manager.SameKeys topped := by
  refine .check .hasActiveTxn ?_ .throw_bind
  refine .ite (fun _ => .pure (by simp)) fun _ => ?_
  refine .ite (fun _ => .pure (by simp)) fun _ => ?_
  apply Upholds.bind (manager.registerMutationRollback_upholds hlistener)
  intro registered hregistered
  apply Upholds.bind .get
  intro session _
  apply (topUpRange_upholds hothers registered _ _).weaken
  exact fun result hresult topped htopped => hregistered.trans (hresult topped htopped)

end DescriptorScriptPubKeyMan

/-- The property does not depend on whether the wallet is blank and on which managers are active. -/
structure CWallet.Indifferent (P : CWallet → Prop) : Prop where
  blank : ∀ wallet other, P wallet → P other →
    P { wallet with walletFlags := other.walletFlags &&& ~~~walletFlagBlankWallet }
  snapshot : ∀ wallet, P wallet →
    P { wallet with walletFlagsTxnSnapshot := some wallet.walletFlags }
  committed : ∀ wallet, P wallet → P { wallet with walletFlagsTxnSnapshot := none }
  restored : ∀ wallet flags, P wallet → wallet.walletFlagsTxnSnapshot = some flags →
    P { wallet with walletFlags := flags, walletFlagsTxnSnapshot := none }
  active : ∀ wallet active, P wallet → P { wallet with active := active }

section

omit [Crypto] [PqhdKeys]

variable (hP : CWallet.Indifferent P)
include hP

lemma flagsListener_keeps : flagsListener.Keeps P := by
  intro wallet hwallet
  refine ⟨hP.committed wallet hwallet, ?_⟩
  unfold flagsListener
  dsimp only
  cases hsnapshot : wallet.walletFlagsTxnSnapshot with
  | none => exact hwallet
  | some flags => exact hP.restored wallet flags hwallet hsnapshot

lemma snapshotFlags_upholds : Upholds P Q snapshotFlags fun _ => True := by
  apply Upholds.bind .get
  intro session _
  refine .ite (fun _ => ?_) fun _ => .pure trivial
  exact .bind (.modifyMemory hP.snapshot) fun _ _ => .registerTxnListener (flagsListener_keeps hP)

lemma unsetBlankWalletFlag_upholds (hothers : Records.KeepsOthers Q) :
    Upholds P Q unsetBlankWalletFlag fun _ => True := by
  apply Upholds.bind .get
  intro session hsession
  refine .check (hothers.writeIC _ rfl) ?_ .throw_bind
  have hset : Upholds P Q (modifyMemory fun wallet => { wallet with
      walletFlags := session.memory.walletFlags &&& ~~~walletFlagBlankWallet } : WalletAction Unit)
      fun _ => True :=
    .modifyMemory fun wallet hwallet => hP.blank wallet session.memory hwallet hsession.memory
  exact .branch .hasActiveTxn (.bind (snapshotFlags_upholds hP) fun _ _ => hset) hset

lemma activated_keeps (id : Uint256) (type : OutputType) (internal : Bool)
    {wallet : CWallet} (hwallet : P wallet) : P (wallet.activated id type internal) := by
  unfold activated loadActiveScriptPubKeyMan
  split
  · exact hP.active wallet _ hwallet
  · exact hwallet

lemma addActiveScriptPubKeyManWithDb_upholds
    (hothers : Records.KeepsOthers Q) (id : Uint256) (type : OutputType) (internal : Bool) :
    Upholds P Q (addActiveScriptPubKeyManWithDb id type internal) fun _ => True := by
  refine .check (hothers.writeIC _ rfl) ?_ .throw_bind
  apply Upholds.branch .hasActiveTxn
  · apply Upholds.registerTxnListener
    exact fun wallet hwallet => ⟨activated_keeps hP id type internal hwallet, hwallet⟩
  · apply Upholds.modifyMemory
    exact fun wallet hwallet => activated_keeps hP id type internal hwallet

end

lemma setupDescriptor_upholds [Aes] (hP : Indifferent P) (hothers : Records.KeepsOthers Q)
    (manager : DescriptorScriptPubKeyMan) (hlistener : manager.rollbackListener.Keeps P) :
    Upholds P Q (setupDescriptor manager) fun result => ∀ topped ∈ result,
      manager.SameKeys topped := by
  apply Upholds.bind .get
  intro session _
  refine .ite (fun _ => .throw_bind) fun _ => ?_
  refine .check (hothers.writeIC _ rfl) ?_ .throw_bind
  apply Upholds.bind (manager.topUpWithDB_upholds hothers hlistener 0 true)
  rintro (_ | topped) htopped
  · exact .pure (by simp)
  · apply Upholds.bind (unsetBlankWalletFlag_upholds hP hothers)
    exact fun _ _ => .pure htopped

/-- The property does not depend on the state of the caches and on the master key in the memory. -/
structure CWallet.Relockable (P : CWallet → Prop) : Prop where
  confirmed : ∀ wallet id, P wallet →
    P (wallet.modifyManager id DescriptorScriptPubKeyMan.confirmed)
  invalidated : ∀ wallet id, P wallet →
    P (wallet.modifyManager id DescriptorScriptPubKeyMan.invalidated)
  master : ∀ wallet key, P wallet → P { wallet with vMasterKey := key }

lemma CWallet.Relockable.validatePQHDCaches [Aes] (hP : Relockable P) {wallet : CWallet}
    (hwallet : P wallet) (candidateKey : Option Bytes) :
    P (wallet.validatePQHDCaches candidateKey).2 := by
  unfold CWallet.validatePQHDCaches
  cases validateLoop (wallet.seedProvider candidateKey) wallet.spkManagers.entries ∅ [] with
  | unusable => exact hwallet
  | mismatch id => exact hP.invalidated wallet id hwallet
  | passed managers =>
    apply List.foldlRecOn (motive := P) managers _ hwallet
    exact fun current hcurrent id _ => hP.confirmed current id hcurrent

omit [Crypto] [PqhdKeys] in
lemma lockWallet_upholds (hP : Relockable P) : Upholds P Q lockWallet fun _ => True := by
  apply Upholds.bind .get
  intro session _
  refine .ite (fun _ => .pure trivial) fun _ => ?_
  apply Upholds.bind (.modifyMemory fun wallet hwallet => hP.master wallet _ hwallet)
  exact fun _ _ => .pure trivial

lemma validateCaches_upholds [Aes] (hP : Relockable P) (candidateKey : Option Bytes) :
    Upholds P Q (validateCaches candidateKey) fun _ => True := by
  apply Upholds.bind .get
  intro session hsession
  apply Upholds.bind (.modifyMemory fun _ _ => hP.validatePQHDCaches hsession.memory candidateKey)
  exact fun _ _ => .pure trivial

variable [Aes] [KeyCheck]

lemma unlockWith_upholds (hP : Relockable P) (vMasterKeyIn : Bytes) (thorough : Uint256 → Bool) :
    Upholds P Q (unlockWith vMasterKeyIn thorough) fun _ => True := by
  refine .ite (fun _ => .pure trivial) fun _ => ?_
  apply Upholds.bind .get
  intro session _
  refine .ite (fun _ => .pure trivial) fun _ => ?_
  cases checkDecryptionKeys vMasterKeyIn thorough session.memory.spkManagers.entries with
  | error what => exact .throw
  | ok accepted =>
    cases accepted with
    | false => exact .pure trivial
    | true =>
      refine .check (validateCaches_upholds hP _) ?_ .throw_bind
      apply Upholds.bind (.modifyMemory fun wallet hwallet => hP.master wallet _ hwallet)
      exact fun _ _ => .pure trivial

variable (hP : CWallet.Relockable P) (strWalletPassphrase : Bytes) (thorough : Uint256 → Bool)
include hP

lemma unlockLoop_upholds (entries : List (Sigma fun _ : Nat => CMasterKey)) :
    Upholds P Q (unlockLoop strWalletPassphrase thorough entries) fun _ => True := by
  induction entries with
  | nil => exact .pure trivial
  | cons entry others ih =>
    unfold unlockLoop
    cases decryptMasterKey strWalletPassphrase entry.2 with
    | none => exact ih
    | some plainMasterKey =>
      exact .branch (unlockWith_upholds hP plainMasterKey thorough) (.pure trivial) ih

lemma unlock_upholds : Upholds P Q (unlock strWalletPassphrase thorough) fun _ => True := by
  apply Upholds.bind .get
  exact fun session _ => unlockLoop_upholds hP strWalletPassphrase thorough _

end Tidecoin
