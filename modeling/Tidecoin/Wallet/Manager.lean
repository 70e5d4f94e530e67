import Tidecoin.Lib.Entries
import Tidecoin.Wallet.Records

/-!
One descriptor manager: `wallet/scriptpubkeyman.cpp`. A manager knows the scripts of a range of
positions of its descriptor, and counts the next position to give out.

A function that changes a manager takes it as a value and returns it, so that it serves a manager of
the wallet and one that is still being set up. Where it throws, the changed manager is lost: the
listener `RegisterMutationRollback` has registered before would restore it in any case, before
anything reads it.
-/

namespace Tidecoin

open Lib

/-- AES-256 in CBC mode with padding, for a key of 32 and a vector of 16 bytes. A decryption that
fails gives no bytes. -/
class Aes where
  encrypt : (key iv plaintext : Bytes) → Bytes
  decrypt : (key iv ciphertext : Bytes) → Bytes
  decryptEncrypt : ∀ key iv plaintext, decrypt key iv (encrypt key iv plaintext) = plaintext
  encryptLength : ∀ key iv plaintext, (encrypt key iv plaintext).length =
    (plaintext.length / 16 + 1) * 16

/-- A choice of the cipher that can be evaluated: the padding alone. -/
@[reducible] def Aes.padded : Aes where
  encrypt _ _ plaintext :=
    plaintext ++ List.replicate (16 - plaintext.length % 16)
      (UInt8.ofNat (16 - plaintext.length % 16))
  decrypt _ _ ciphertext := ciphertext.take (ciphertext.length - (ciphertext.getLastD 0).toNat)
  decryptEncrypt key iv plaintext := by
    have hlt : plaintext.length % 16 < 16 := Nat.mod_lt _ (by decide)
    obtain ⟨count, hcount⟩ : ∃ count, 16 - plaintext.length % 16 = count + 1 :=
      ⟨15 - plaintext.length % 16, by omega⟩
    have hbyte : (UInt8.ofNat (count + 1)).toNat = count + 1 := by
      rw [UInt8.toNat_ofNat']
      omega
    have hlast : (plaintext ++ List.replicate (count + 1) (UInt8.ofNat (count + 1))).getLastD 0 =
        UInt8.ofNat (count + 1) := by
      rw [List.replicate_succ', ← List.append_assoc, List.getLastD_concat]
    rw [hcount, hlast, hbyte, List.length_append, List.length_replicate, Nat.add_sub_cancel,
      List.take_left]
  encryptLength key iv plaintext := by
    rw [List.length_append, List.length_replicate]
    omega

section

variable [Aes]

def walletCryptoKeySize : Nat := 32

/-- `EncryptSecret`: the vector is the front of the hash. -/
def encryptSecret (vMasterKey vchPlaintext : Bytes) (nIV : Uint256) : Option Bytes :=
  if vMasterKey.length ≠ walletCryptoKeySize then none
  else some (Aes.encrypt vMasterKey (nIV.toBytes.take 16) vchPlaintext)

def decryptSecret (masterKey ciphertext : Bytes) (iv : Uint256) : Option Bytes :=
  if masterKey.length ≠ walletCryptoKeySize then none
  else
    let plaintext := Aes.decrypt masterKey (iv.toBytes.take 16) ciphertext
    if plaintext.isEmpty then none else some plaintext

def decryptPQHDSeed [PqhdKeys] (masterKey : Bytes) (seedId : Uint256) (ciphertext : Bytes) :
    Option Bytes := do
  let plaintext ← decryptSecret masterKey ciphertext seedId
  guard (plaintext.length = 32 && PqhdKeys.seedID plaintext = seedId)
  return plaintext

end

namespace CWallet

section

variable (wallet : CWallet)

def isCrypted : Bool := !wallet.mapMasterKeys.entries.isEmpty

def isLocked : Bool := wallet.isCrypted && wallet.vMasterKey.isEmpty

def havePQHDSeed (seedId : Uint256) : Bool := seedId ∈ wallet.pqhdSeedIds

def getPQHDSeed [Aes] [PqhdKeys] : SeedSource := fun seedId => do
  let state ← wallet.pqhdSeeds.lookup seedId
  if !state.encrypted then
    guard (!(wallet.isCrypted && wallet.vMasterKey.isEmpty) && state.seed.length = 32)
    return state.seed
  else
    guard (!wallet.isLocked)
    decryptPQHDSeed wallet.vMasterKey seedId state.cryptedSeed

/-- A change of one manager of the wallet. -/
def modifyManager (id : Uint256) (f : DescriptorScriptPubKeyMan → DescriptorScriptPubKeyMan) :
    CWallet :=
  { wallet with
    spkManagers := (wallet.spkManagers.lookup id).elim wallet.spkManagers fun manager =>
      wallet.spkManagers.replace id (f manager) }

end

variable {wallet : CWallet} {id : Uint256} {manager : DescriptorScriptPubKeyMan}
  {f g : DescriptorScriptPubKeyMan → DescriptorScriptPubKeyMan}

variable (h : wallet.spkManagers.lookup id = some manager)
include h

lemma modifyManager_eq : wallet.modifyManager id f =
      { wallet with spkManagers := wallet.spkManagers.replace id (f manager) } := by
  rw [modifyManager, h, Option.elim_some]

lemma lookup_modifyManager :
    (wallet.modifyManager id f).spkManagers.lookup id = some (f manager) := by
  rw [modifyManager_eq h]
  exact lookup_replace_self _ h

end CWallet

/-- The largest `int32_t`. -/
def int32Max : Int := 2 ^ 31 - 1

namespace DescriptorScriptPubKeyMan

section

variable (manager : DescriptorScriptPubKeyMan)

def getID : Uint256 := manager.walletDescriptor.id

def isCacheUsable : Bool := manager.cacheState ≠ .invalid

def isCacheVerified : Bool := manager.cacheState = .verified

/-- The record `WriteDescriptor` writes. -/
def record : DescriptorRecord := manager.walletDescriptor.toDescriptorRecord

end

/-- The end of a transaction that is aborted: the state before it, but a mismatch that was found
stays found. -/
def rolledBack (current snapshot : DescriptorScriptPubKeyMan) : DescriptorScriptPubKeyMan :=
  { snapshot with
    cacheState := if current.cacheState = .invalid then .invalid else snapshot.cacheState
    keypoolSize := current.keypoolSize
    mutationBatch := false }

/-- The listener of `RegisterMutationRollback`. It finds the manager by its id, and nothing if it is
gone. -/
def rollbackListener (manager : DescriptorScriptPubKeyMan) : Listener CWallet where
  onCommit wallet :=
    wallet.modifyManager manager.getID fun current => { current with mutationBatch := false }
  onAbort wallet := wallet.modifyManager manager.getID fun current => current.rolledBack manager

/-- `RegisterMutationRollback`: once for each transaction. -/
def registerMutationRollback (manager : DescriptorScriptPubKeyMan) :
    WalletAction DescriptorScriptPubKeyMan := do
  if !(← hasActiveTxn) then throw .terminated
  if manager.mutationBatch then return manager
  registerTxnListener manager.rollbackListener
  return { manager with mutationBatch := true }

/-- The scripts of a position are mapped to it. -/
def addScripts (scripts : Store Bytes Int) (position : Int) (new : List Bytes) : Store Bytes Int :=
  new.foldl (fun scripts script => scripts.insert script position) scripts

/-- The keys of a position are mapped to it, unless they have a position. -/
def addPubKeys (pubkeys : Store CPubKey Int) (position : Int) (out : FlatSigningProvider) :
    Store CPubKey Int :=
  out.pubkeys.entries.foldl (fun pubkeys entry =>
    if (pubkeys entry.2).isSome then pubkeys else pubkeys.insert entry.2 position) pubkeys

variable [Crypto] [PqhdKeys]

/-- The scripts of a position, from the cache or else derived, with the keys to be cached. -/
def expandPosition (desc : WalletDescriptor) (provider : SeedSource) (i : Int) :
    Option (List Bytes × FlatSigningProvider × DescriptorCache) :=
  match desc.descriptor.expandFromCache i desc.cache with
  | some (scriptsTemp, outKeys) => some (scriptsTemp, outKeys, ∅)
  | none => (desc.descriptor.expand i provider).map fun expanded =>
    (expanded.result, expanded.out, expanded.writeCache)

def writeDescriptorCacheItems (descId : Uint256) : List (Sigma fun _ : Nat × Nat => CPubKey) →
    WalletAction Bool
  | [] => return true
  | item :: items => do
      if !(← writeIC (.walletDescriptorPubkeyCache descId item.1.1 item.1.2) item.2) then
        return false
      writeDescriptorCacheItems descId items

/-- A position of the loop of `TopUpWithDB`, or nothing if it cannot be expanded. -/
def topUpPosition (manager : DescriptorScriptPubKeyMan) (provider : SeedSource) (i : Int) :
    WalletAction (Option DescriptorScriptPubKeyMan) := do
  match expandPosition manager.walletDescriptor provider i with
  | none => return none
  | some (scriptsTemp, outKeys, tempCache) =>
    match manager.walletDescriptor.cache.mergeAndDiff tempCache with
    | none => throw (.thrown
        "MergeAndDiff: New cached derived pubkey does not match already cached derived pubkey")
    | some (cache, newItems) =>
      if !(← writeDescriptorCacheItems manager.getID newItems.entries) then
        throw (.thrown "TopUpWithDB: writing cache items failed")
      return some { manager with
        walletDescriptor := { manager.walletDescriptor with cache := cache }
        mapScriptPubKeys := addScripts manager.mapScriptPubKeys i scriptsTemp
        mapPubkeys := addPubKeys manager.mapPubkeys i outKeys
        maxCachedIndex := i }

/-- The loop of `TopUpWithDB`, over `count` positions from `i` on. -/
def topUpLoop (provider : SeedSource) : (count : Nat) → (i : Int) → DescriptorScriptPubKeyMan →
    WalletAction (Option DescriptorScriptPubKeyMan)
  | 0, _, manager => return some manager
  | count + 1, i, manager => do
      match ← topUpPosition manager provider i with
      | none => return none
      | some manager => topUpLoop provider count (i + 1) manager

/-- The end of the range `TopUpWithDB` is to reach. -/
def newRangeEnd (desc : WalletDescriptor) (targetSize : Int) : Int :=
  if desc.descriptor.isRange then max desc.rangeEnd (min (desc.nextIndex + targetSize) int32Max)
  else 1

variable (manager : DescriptorScriptPubKeyMan)

/-- The manager as the loop of `TopUpWithDB` starts with it. -/
def topUpStart : DescriptorScriptPubKeyMan :=
  let desc := manager.walletDescriptor
  { manager with
    walletDescriptor := { desc with
      rangeStart := if desc.descriptor.isRange then desc.rangeStart else 0 }
    maxCachedIndex := max manager.maxCachedIndex (desc.rangeStart - 1) }

/-- `TopUpWithDB` after its checks: the positions up to the end of the range are expanded, and the
record of the descriptor is written. -/
def topUpRange (provider : SeedSource) (newRangeEnd : Int) :
    WalletAction (Option DescriptorScriptPubKeyMan) := do
  let started := manager.topUpStart
  let start := max started.walletDescriptor.rangeStart (started.maxCachedIndex + 1)
  match ← topUpLoop provider (newRangeEnd - start).toNat start started with
  | none => return none
  | some manager =>
    let manager := { manager with
      walletDescriptor := { manager.walletDescriptor with rangeEnd := newRangeEnd } }
    if !(← writeIC (.walletDescriptor manager.getID) manager.record) then
      throw (.thrown "TopUpWithDB: writing descriptor failed")
    if newRangeEnd - 1 ≠ manager.maxCachedIndex then throw .terminated
    return some manager

/-- `TopUpWithDB`: the manager with the positions up to the target, or nothing. -/
def topUpWithDB [Aes] (size : Nat) (expandRange : Bool) :
    WalletAction (Option DescriptorScriptPubKeyMan) := do
  if !(← hasActiveTxn) then throw .terminated
  let desc := manager.walletDescriptor
  if !desc.hasValidRange || !manager.isCacheUsable then return none
  let targetSize : Int :=
    if expandRange then (if size > 0 then size else manager.keypoolSize) else 0
  if targetSize < 0 || targetSize > int32Max then return none
  let manager ← manager.registerMutationRollback
  manager.topUpRange (← get).memory.getPQHDSeed (newRangeEnd desc targetSize)

end DescriptorScriptPubKeyMan

end Tidecoin
