import Tidecoin.Lib.Upholds
import Tidecoin.Lib.Store
import Tidecoin.Script.Descriptor

/-!
The records of a wallet database (`wallet/walletdb.cpp`) and the memory of the wallet they are
loaded into (`wallet/wallet.h`, `wallet/scriptpubkeyman.h`). A database is a map from keys to the
value the kind of key has. Transactions, the address book and birth times are left out.
-/

namespace Tidecoin

open Lib

/-- `PQHDSeed`, in the one version there is. -/
structure PQHDSeed where
  nCreateTime : Int
  seed : Bytes
deriving DecidableEq, Repr

structure PQHDCryptedSeed where
  nCreateTime : Int
  cryptedSeed : Bytes
deriving DecidableEq, Repr

structure PQHDPolicy where
  defaultReceiveScheme : UInt8
  defaultChangeScheme : UInt8
  defaultSeedId : Uint256
  defaultChangeSeedId : Uint256
deriving DecidableEq, Repr

structure CMasterKey where
  vchCryptedKey : Bytes
  vchSalt : Bytes
  nDerivationMethod : Nat
  nDeriveIterations : Nat
deriving DecidableEq, Repr

/-- What a `WalletDescriptor` writes: its id is the key of the record, and the cache has records of
its own. -/
structure DescriptorRecord where
  descriptor : Descriptor
  creationTime : Nat
  nextIndex : Int
  rangeStart : Int
  rangeEnd : Int

structure WalletDescriptor extends DescriptorRecord where
  id : Uint256
  cache : DescriptorCache

def WalletDescriptor.hasValidRange (desc : WalletDescriptor) : Bool :=
  desc.rangeStart ≥ 0 && desc.rangeStart ≤ desc.nextIndex && desc.nextIndex ≤ desc.rangeEnd &&
    (desc.descriptor.isRange || (desc.rangeStart = 0 && desc.rangeEnd ≤ 1))

/-- The kinds of records, `DBKeys`, with what their keys hold. -/
inductive DBKey where
  | activeSpk (internal : Bool) (type : OutputType)
  | walletDescriptor (descId : Uint256)
  | walletDescriptorPubkeyCache (descId : Uint256) (keyExpIndex derIndex : Nat)
  | walletDescriptorKey (descId : Uint256) (pubkey : CPubKey)
  | walletDescriptorCKey (descId : Uint256) (pubkey : CPubKey)
  | masterKey (nID : Nat)
  | pqhdSeed (seedId : Uint256)
  | pqhdCryptedSeed (seedId : Uint256)
  | pqhdPolicy
  | flags
deriving DecidableEq

/-- The type of the values of a kind of record. -/
abbrev DBKey.Value : DBKey → Type
  | activeSpk _ _ => Uint256
  | walletDescriptor _ => DescriptorRecord
  | walletDescriptorPubkeyCache _ _ _ => CPubKey
  | walletDescriptorKey _ _ => Bytes
  | walletDescriptorCKey _ _ => Bytes
  | masterKey _ => CMasterKey
  | pqhdSeed _ => PQHDSeed
  | pqhdCryptedSeed _ => PQHDCryptedSeed
  | pqhdPolicy => PQHDPolicy
  | flags => UInt64

abbrev Records := (key : DBKey) → Option key.Value

inductive CacheState where
  | unverified
  | verified
  | invalid
deriving DecidableEq, Repr

/-- `DescriptorScriptPubKeyMan`. One batch at a time is open, so of `m_mutation_batches` only
whether it holds that batch is kept. -/
structure DescriptorScriptPubKeyMan where
  walletDescriptor : WalletDescriptor
  mapScriptPubKeys : Store Bytes Int
  mapPubkeys : Store CPubKey Int
  mapKeys : AList fun _ : Uint160 => CKey
  mapCryptedKeys : AList fun _ : Uint160 => CPubKey × Bytes
  mapSigningProviders : Store Int FlatSigningProvider
  maxCachedIndex : Int
  cacheState : CacheState
  keypoolSize : Int
  mutationBatch : Bool

/-- The constructor of a manager for a descriptor. -/
def DescriptorScriptPubKeyMan.new (descriptor : WalletDescriptor) (keypoolSize : Int) :
    DescriptorScriptPubKeyMan where
  walletDescriptor := descriptor
  mapScriptPubKeys := fun _ => none
  mapPubkeys := fun _ => none
  mapKeys := ∅
  mapCryptedKeys := ∅
  mapSigningProviders := fun _ => none
  maxCachedIndex := -1
  cacheState := if descriptor.cache.entries.isEmpty then .verified else .unverified
  keypoolSize := keypoolSize
  mutationBatch := false

structure PQHDSeedState where
  createTime : Int
  encrypted : Bool
  seed : Bytes
  cryptedSeed : Bytes
deriving DecidableEq, Repr

/-- The two maps of active managers, by the id of the manager. -/
@[ext]
structure ActiveMaps where
  externalSpkManagers : Store OutputType Uint256
  internalSpkManagers : Store OutputType Uint256

/-- The part of `CWallet` the modelled functions use. `wallet_flags_txn_snapshot` is the entry for
the batch that is open. -/
structure CWallet where
  walletFlags : UInt64
  walletFlagsTxnSnapshot : Option UInt64
  spkManagers : AList fun _ : Uint256 => DescriptorScriptPubKeyMan
  active : ActiveMaps
  pqhdSeeds : AList fun _ : Uint256 => PQHDSeedState
  pqhdSeedIds : Finset Uint256
  pqhdPolicy : Option PQHDPolicy
  mapMasterKeys : AList fun _ : Nat => CMasterKey
  nMasterKeyMaxID : Nat
  vMasterKey : Bytes
  recoveryRequired : Bool
  targetHeightForOutputs : Int
  keypoolSize : Int

/-- A descriptor wallet without managers and seeds. -/
def CWallet.blank : CWallet where
  walletFlags := 0x400000000
  walletFlagsTxnSnapshot := none
  spkManagers := ∅
  active := ⟨fun _ => none, fun _ => none⟩
  pqhdSeeds := ∅
  pqhdSeedIds := ∅
  pqhdPolicy := none
  mapMasterKeys := ∅
  nMasterKeyMaxID := 0
  vMasterKey := []
  recoveryRequired := false
  targetHeightForOutputs := 0
  keypoolSize := 1

/-- Programs over the wallet and its database. An exception carries its text. -/
abbrev WalletAction (α : Type) := Action CWallet Records String α

namespace Records

def set (records : Records) (key : DBKey) (value : Option key.Value) : Records :=
  Function.update records key value

/-- The record of the active manager of a kind and type. -/
def activeSpk (records : Records) (internal : Bool) (type : OutputType) : Option Uint256 :=
  records (.activeSpk internal type)

@[simp] lemma set_same (records : Records) (key : DBKey) (value : Option key.Value) :
    records.set key value key = value := Function.update_self ..

@[simp] lemma set_of_ne {records : Records} {key other : DBKey} (hne : other ≠ key)
    (value : Option key.Value) : records.set key value other = records other :=
  Function.update_of_ne hne ..

lemma set_none {records : Records} {key other : DBKey} (heq : key = other) :
    records.set key none other = none := by
  subst heq
  exact set_same ..

lemma activeSpk_set (records : Records) (internal kind : Bool) (type other : OutputType)
    (id : Option Uint256) : (records.set (.activeSpk internal type) id).activeSpk kind other =
      if other = type ∧ kind = internal then id else records.activeSpk kind other := by
  split
  · next h =>
    obtain ⟨rfl, rfl⟩ := h
    exact set_same ..
  · next h =>
    refine set_of_ne (fun heq => h ?_) _
    rw [DBKey.activeSpk.injEq] at heq
    exact ⟨heq.2, heq.1⟩

end Records

/-- `WriteIC` of a record that may be there. -/
def writeIC (key : DBKey) (value : key.Value) : WalletAction Bool :=
  update fun records => some (records.set key (some value))

/-- `WriteIC` without overwriting. -/
def insertIC (key : DBKey) (value : key.Value) : WalletAction Bool :=
  update fun records => if (records key).isSome then none else some (records.set key (some value))

/-- `EraseIC`, which succeeds without a record too. -/
def eraseIC (key : DBKey) : WalletAction Bool := update fun records => some (records.set key none)

section

variable {m : CWallet} {d work : Records} {publish : CWallet → CWallet}
  {R : Stop String → Session CWallet Records → Prop}

variable (key : DBKey) (value : key.Value)

lemma writeIC_deferred : Triple (Deferred m d work publish) (writeIC key value)
      (fun done => cond done (Deferred m d (work.set key (some value)) publish)
        (Deferred m d work publish)) R := by
  refine Triple.update_deferred.weaken ?_ fun _ _ => id
  rintro (_ | _) s hs
  · exact hs
  · obtain ⟨records, ⟨rfl⟩, hdeferred⟩ := hs
    exact hdeferred

lemma writeIC_outside : Triple (Outside m d) (writeIC key value)
      (fun done => cond done (Outside m (d.set key (some value))) (Outside m d)) R := by
  refine Triple.update_outside.weaken ?_ fun _ _ => id
  rintro (_ | _) s hs
  · exact hs
  · obtain ⟨records, ⟨rfl⟩, houtside⟩ := hs
    exact houtside

lemma insertIC_deferred :
    Triple (Deferred m d work publish) (insertIC key value) (fun done => cond done
        (fun s => work key = none ∧ Deferred m d (work.set key (some value)) publish s)
        (Deferred m d work publish)) R := by
  refine Triple.update_deferred.weaken ?_ fun _ _ => id
  rintro (_ | _) s hs
  · exact hs
  · obtain ⟨records, hchange, hdeferred⟩ := hs
    split at hchange
    · cases hchange
    · next hnone =>
      cases hchange
      exact ⟨by simpa using hnone, hdeferred⟩

lemma eraseIC_deferred : Triple (Deferred m d work publish) (eraseIC key)
      (fun done => cond done (Deferred m d (work.set key none) publish) (Deferred m d work publish))
      R := by
  refine Triple.update_deferred.weaken ?_ fun _ _ => id
  rintro (_ | _) s hs
  · exact hs
  · obtain ⟨records, ⟨rfl⟩, hdeferred⟩ := hs
    exact hdeferred

lemma eraseIC_outside : Triple (Outside m d) (eraseIC key)
      (fun done => cond done (Outside m (d.set key none)) (Outside m d)) R := by
  refine Triple.update_outside.weaken ?_ fun _ _ => id
  rintro (_ | _) s hs
  · exact hs
  · obtain ⟨records, ⟨rfl⟩, houtside⟩ := hs
    exact houtside

end

lemma writeIC_upholds {P : CWallet → Prop} {Q : Records → Prop} {key : DBKey} {value : key.Value}
    (h : ∀ records : Records, Q records → Q (records.set key (some value))) :
    Upholds P Q (writeIC key value) fun _ => True := by
  apply Upholds.update
  rintro records _ hrecords ⟨⟩
  exact h records hrecords

/-- The values of the flags. -/
def walletFlagDisablePrivateKeys : UInt64 := 0x100000000
def walletFlagBlankWallet : UInt64 := 0x200000000
def walletFlagDescriptors : UInt64 := 0x400000000
def walletFlagExternalSigner : UInt64 := 0x800000000

def CWallet.isWalletFlagSet (wallet : CWallet) (flag : UInt64) : Bool :=
  wallet.walletFlags &&& flag ≠ 0

end Tidecoin
