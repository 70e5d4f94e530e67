import Tidecoin.Wallet.TopUp

/-!
The cache of a descriptor and the seeds of the wallet: `ValidatePQHDCaches` compares the keys that
were stored with the keys the seeds give, when the wallet is loaded, when a descriptor is imported
and when the wallet is unlocked.
-/

namespace Tidecoin

open Lib

/-- `VerifiedPQHDKeys`: the keys derived so far in one validation, by seed and path. -/
abbrev VerifiedPQHDKeys := AList fun _ : Uint256 × List UInt32 => CPubKey

namespace DescriptorScriptPubKeyMan

section

variable [Crypto] [PqhdKeys]

/-- The descriptor `VerifyCache` has parsed from the text of a path. The parser wants six hardened
elements, the last one possibly a wildcard. -/
def parsePath (info : PQHDKeyPathInfo) : Option Descriptor := do
  let path := info.path.map fun component => Pqhd.masked component ||| Pqhd.hardened
  guard (path.length = if info.isRange then 5 else 6)
  guard ((path[0]?.map Pqhd.masked) = some Pqhd.purpose)
  guard ((path[1]?.map Pqhd.masked) = some Pqhd.coinType)
  let scheme ← path[2]?.map Pqhd.masked
  guard (scheme ≤ 0xff && (schemeFromPrefix scheme.toUInt8).isSome)
  let change ← path[4]?.map Pqhd.masked
  guard (change ≤ 1)
  return .pk (.pqhd 0 info.seedId path (if info.isRange then .hardened else .no) scheme.toUInt8)

/-- The path of the key at a place of the cache. -/
def leafIdentity (info : PQHDKeyPathInfo) (index : Nat) : Uint256 × List UInt32 :=
  (info.seedId,
    if info.isRange then info.path ++ [UInt32.ofNat index ||| Pqhd.hardened] else info.path)

/-- One key of `VerifyCache`: it is derived, unless it has been, and compared. -/
def verifyKey (provider : SeedSource) (info : PQHDKeyPathInfo) (parsed : Descriptor) (index : Nat)
    (key : CPubKey) (verified : VerifiedPQHDKeys) : Option VerifiedPQHDKeys := do
  let identity := leafIdentity info index
  match verified.lookup identity with
  | some found =>
    guard (found = key)
    return verified
  | none =>
    let expanded ← parsed.expand index provider
    guard (expanded.out.pubkeys.entries.length = 1)
    let derived ← expanded.out.pubkeys.entries.head?
    guard (derived.2 = key)
    return verified.insert identity derived.2

/-- One key expression of `VerifyCache`. An expression without cached keys is passed over. -/
def verifyExpression (provider : SeedSource) (cache : DescriptorCache)
    (verified : VerifiedPQHDKeys) (entry : Sigma fun _ : Nat => PQHDKeyPathInfo) :
    Option VerifiedPQHDKeys := do
  let found := cache.entries.filter fun cached => cached.1.1 = entry.1
  if found.isEmpty then return verified
  let parsed ← parsePath entry.2
  found.foldlM (fun verified cached => verifyKey provider entry.2 parsed cached.1.2 cached.2
    verified)
    verified

/-- `VerifyCache`: the keys derived so far, or nothing if a key of the cache is another one. -/
def verifyCache (manager : DescriptorScriptPubKeyMan) (provider : SeedSource)
    (verified : VerifiedPQHDKeys) : Option VerifiedPQHDKeys :=
  manager.walletDescriptor.descriptor.getPQHDKeyPaths.entries.foldlM
    (verifyExpression provider manager.walletDescriptor.cache) verified

end

/-- The manager of a mismatch. -/
def invalidated (manager : DescriptorScriptPubKeyMan) : DescriptorScriptPubKeyMan :=
  { manager with cacheState := .invalid, mapSigningProviders := fun _ => none }

/-- The manager of a cache that was checked. -/
def confirmed (manager : DescriptorScriptPubKeyMan) : DescriptorScriptPubKeyMan :=
  { manager with cacheState := .verified }

end DescriptorScriptPubKeyMan

variable [Crypto] [PqhdKeys] [Aes]

/-- The seeds of `ValidatePQHDCaches`, with a key that is still to be tried. -/
def CWallet.seedProvider (wallet : CWallet) (candidateKey : Option Bytes) : SeedSource :=
  fun id => do
  let state ← wallet.pqhdSeeds.lookup id
  match candidateKey with
  | some key =>
    if state.encrypted then decryptPQHDSeed key id state.cryptedSeed else wallet.getPQHDSeed id
  | none => wallet.getPQHDSeed id

/-- The ends of the loop of `ValidatePQHDCaches`: a manager that was found wrong now or before, or
the managers that passed. -/
inductive Validation where
  | unusable
  | mismatch (id : Uint256)
  | passed (managers : List Uint256)

/-- The loop of `ValidatePQHDCaches`. A manager whose seeds are not all there is passed over. -/
def validateLoop (provider : SeedSource) :
    List (Sigma fun _ : Uint256 => DescriptorScriptPubKeyMan) →
    VerifiedPQHDKeys → (managers : List Uint256) → Validation
  | [], _, managers => .passed managers
  | entry :: others, verified, managers =>
    if !entry.2.isCacheUsable then .unusable
    else if entry.2.isCacheVerified then validateLoop provider others verified managers
    else if !entry.2.walletDescriptor.descriptor.getPQHDSeedIDs.all fun id =>
      (provider id).isSome then
      validateLoop provider others verified managers
    else
      match entry.2.verifyCache provider verified with
      | none => .mismatch entry.1
      | some verified => validateLoop provider others verified (entry.1 :: managers)

/-- `ValidatePQHDCaches`: nothing is marked as checked unless every manager passes. -/
def CWallet.validatePQHDCaches (wallet : CWallet) (candidateKey : Option Bytes) : Bool × CWallet :=
  match validateLoop (wallet.seedProvider candidateKey) wallet.spkManagers.entries ∅ [] with
  | .unusable => (false, wallet)
  | .mismatch id => (false, wallet.modifyManager id DescriptorScriptPubKeyMan.invalidated)
  | .passed managers =>
    (true, managers.foldl
      (fun wallet id => wallet.modifyManager id DescriptorScriptPubKeyMan.confirmed) wallet)

/-- `ValidatePQHDCaches` as a step. -/
def validateCaches (candidateKey : Option Bytes) : WalletAction Bool := do
  let (valid, wallet) := (← get).memory.validatePQHDCaches candidateKey
  modifyMemory fun _ => wallet
  return valid

/-- `WriteCryptedDescriptorKey` in a transaction. -/
def writeCryptedDescriptorKey (descId : Uint256) (pubkey : CPubKey) (secret : Bytes) :
    WalletAction Bool := do
  if !(← insertIC (.walletDescriptorCKey descId pubkey) secret) then return false
  eraseIC (.walletDescriptorKey descId pubkey)

def CWallet.removeScriptPubKeyMan (wallet : CWallet) (id : Uint256) : CWallet :=
  if id ∈ wallet.spkManagers then
    { wallet with
      spkManagers := wallet.spkManagers.erase id
      active :=
        ⟨fun type => (wallet.active.externalSpkManagers type).filter fun active => active ≠ id,
        fun type => (wallet.active.internalSpkManagers type).filter fun active => active ≠ id⟩ }
  else wallet

end Tidecoin
