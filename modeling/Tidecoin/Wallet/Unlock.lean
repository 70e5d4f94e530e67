import Tidecoin.Wallet.Caches

/-!
The keys of an encrypted wallet: `wallet/crypter.cpp`, and the functions of `wallet/wallet.cpp` and
`wallet/scriptpubkeyman.cpp` that lock and unlock the wallet. The secrets are encrypted with a
master key, and the master key with a key derived from the passphrase.
-/

namespace Tidecoin

open Lib Option

/-- Whether a secret belongs to a public key. `CKey::Set` computes the public key of the secret and
`VerifyPubKey` checks a signature with it. -/
class KeyCheck where
  belongs : (secret : Bytes) → CPubKey → Bool

section

variable [Crypto] [Aes]

def walletCryptoSaltSize : Nat := 8

def walletCryptoIvSize : Nat := 16

def defaultDeriveIterations : Nat := 25000

/-- `CalibrateDeriveIterations`: the rounds that would take a tenth of a second. -/
def calibrateDeriveIterations (rounds : Nat) (elapsed : Int) : Option Nat :=
  if rounds = 0 || elapsed ≤ 0 then none
  else
    let estimate := rounds * 100000000 / elapsed.toNat
    if estimate = 0 || estimate > 2 ^ 32 - 1 then none else some estimate

/-- `BytesToKeySHA512AES` for at least one round: the key and the vector. -/
def bytesToKeySHA512AES (salt keyData : Bytes) (count : Nat) : Bytes × Bytes :=
  let buf := Crypto.sha512^[count - 1] (Crypto.sha512 (keyData ++ salt))
  (buf.take walletCryptoKeySize, (buf.drop walletCryptoKeySize).take walletCryptoIvSize)

def setKeyFromPassphrase (keyData salt : Bytes) (rounds derivationMethod : Nat) :
    Option (Bytes × Bytes) :=
  if rounds < 1 || salt.length ≠ walletCryptoSaltSize then none
  else if derivationMethod = 0 then some (bytesToKeySHA512AES salt keyData rounds)
  else none

/-- A pass of the loop of `EncryptMasterKey`, which took the time `elapsed`. -/
def sampleIterations (walletPassphrase : Bytes) (masterKey : CMasterKey) (sample : Nat)
    (elapsed : Int) : Option CMasterKey := do
  let _ ← setKeyFromPassphrase walletPassphrase masterKey.vchSalt masterKey.nDeriveIterations
    masterKey.nDerivationMethod
  let estimate ← calibrateDeriveIterations masterKey.nDeriveIterations elapsed
  return { masterKey with
    nDeriveIterations := (masterKey.nDeriveIterations * sample + estimate) / (sample + 1) }

/-- `EncryptMasterKey`, with the times its two passes took. -/
def encryptMasterKey (walletPassphrase plainMasterKey : Bytes) (masterKey : CMasterKey)
    (first second : Int) : Option CMasterKey := do
  let updated ← sampleIterations walletPassphrase masterKey 0 first
  let updated ← sampleIterations walletPassphrase updated 1 second
  let nDeriveIterations := max updated.nDeriveIterations defaultDeriveIterations
  let (key, iv) ← setKeyFromPassphrase walletPassphrase updated.vchSalt nDeriveIterations
    updated.nDerivationMethod
  return { updated with
    nDeriveIterations := nDeriveIterations
    vchCryptedKey := Aes.encrypt key iv plainMasterKey }

def decryptMasterKey (walletPassphrase : Bytes) (masterKey : CMasterKey) : Option Bytes := do
  let (key, iv) ← setKeyFromPassphrase walletPassphrase masterKey.vchSalt
    masterKey.nDeriveIterations masterKey.nDerivationMethod
  let plainMasterKey := Aes.decrypt key iv masterKey.vchCryptedKey
  guard (plainMasterKey.length = walletCryptoKeySize)
  return plainMasterKey

lemma decryptMasterKey_encryptMasterKey {walletPassphrase plainMasterKey : Bytes}
    {masterKey updated : CMasterKey} {first second : Int}
    (hlength : plainMasterKey.length = walletCryptoKeySize)
    (h : encryptMasterKey walletPassphrase plainMasterKey masterKey first second = some updated) :
    decryptMasterKey walletPassphrase updated = some plainMasterKey := by
  simp only [encryptMasterKey, bind_eq_bind, bind_eq_some_iff, pure_def,
    some_inj] at h
  obtain ⟨sampled, -, calibrated, -, ⟨key, iv⟩, hkey, rfl⟩ := h
  simp [decryptMasterKey, hkey, Aes.decryptEncrypt, hlength]

end

section

variable [Crypto] [Aes] [KeyCheck]

def decryptKey (masterKey cryptedSecret : Bytes) (pubKey : CPubKey) : Option CKey := do
  let secret ← decryptSecret masterKey cryptedSecret pubKey.getHash
  guard (KeyCheck.belongs secret pubKey)
  return ⟨secret, pubKey⟩

omit [Crypto] [KeyCheck] in
lemma decryptSecret_encryptSecret {masterKey : Bytes} {plaintext : List UInt8} {crypted : Bytes}
    {iv : Uint256}
    (hsecret : plaintext ≠ []) (h : encryptSecret masterKey plaintext iv = some crypted) :
    decryptSecret masterKey crypted iv = some plaintext := by
  unfold encryptSecret at h
  split at h
  · cases h
  · next hlength =>
    rw [some_inj] at h
    subst h
    simp [decryptSecret, hlength, Aes.decryptEncrypt, hsecret]

/-- The loop of `CheckDecryptionKey` over the encrypted keys: whether one passed, and whether one
failed. A manager that was checked before is asked for one key only. -/
def decryptLoop (masterKey : Bytes) (thoroughlyChecked : Bool) :
    List (Sigma fun _ : Uint160 => CPubKey × Bytes) → (keyPass : Bool) → Bool × Bool
  | [], keyPass => (keyPass, false)
  | entry :: others, keyPass =>
    if (decryptKey masterKey entry.2.2 entry.2.1).isNone then (keyPass, true)
    else if thoroughlyChecked then (true, false)
    else decryptLoop masterKey thoroughlyChecked others true

/-- `CheckDecryptionKey`. `m_decryption_thoroughly_checked` is an argument. -/
def DescriptorScriptPubKeyMan.checkDecryptionKey (manager : DescriptorScriptPubKeyMan)
    (masterKey : Bytes) (thoroughlyChecked : Bool) : Except String Bool :=
  if !manager.mapKeys.entries.isEmpty then return false
  else
    let crypted := manager.mapCryptedKeys.entries
    let (keyPass, keyFail) := decryptLoop masterKey thoroughlyChecked crypted crypted.isEmpty
    if keyPass && keyFail then
      throw
        "Error unlocking wallet: some keys decrypt but not all. Your wallet file may be corrupt."
    else return !(keyFail || !keyPass)

/-- The loop of `Encrypt`: the encrypted keys, or nothing if one could not be encrypted or stored.
-/
def encryptKeys (descId : Uint256) (masterKey : Bytes) : List (Sigma fun _ : Uint160 => CKey) →
    (encryptedKeys : AList fun _ : Uint160 => CPubKey × Bytes) →
    WalletAction (Option (AList fun _ : Uint160 => CPubKey × Bytes))
  | [], encryptedKeys => return some encryptedKeys
  | entry :: others, encryptedKeys => do
      let pubkey := entry.2.pubkey
      match encryptSecret masterKey entry.2.keydata pubkey.getHash with
      | none => return none
      | some cryptedSecret =>
        if !(← writeCryptedDescriptorKey descId pubkey cryptedSecret) then return none
        encryptKeys descId masterKey others (emplace encryptedKeys pubkey.getID (pubkey,
          cryptedSecret))

/-- `Encrypt` of a manager: the encrypted keys take the place of the keys when the transaction is
committed. -/
def DescriptorScriptPubKeyMan.encrypt (manager : DescriptorScriptPubKeyMan) (masterKey : Bytes) :
    WalletAction Bool := do
  if !manager.mapCryptedKeys.entries.isEmpty then return false
  match ← encryptKeys manager.getID masterKey manager.mapKeys.entries ∅ with
  | none => return false
  | some encryptedKeys =>
    registerTxnListener ⟨fun wallet => wallet.modifyManager manager.getID fun current =>
      { current with mapCryptedKeys := encryptedKeys, mapKeys := ∅ }, fun wallet => wallet⟩
    return true

/-- `CheckDecryptionKey` of every manager. -/
def checkDecryptionKeys (vMasterKeyIn : Bytes) (thorough : Uint256 → Bool) :
    List (Sigma fun _ : Uint256 => DescriptorScriptPubKeyMan) → Except String Bool
  | [] => return true
  | entry :: others => do
      if ← entry.2.checkDecryptionKey vMasterKeyIn (thorough entry.1) then
        checkDecryptionKeys vMasterKeyIn thorough others
      else return false

end

/-- `Lock`. -/
def lockWallet : WalletAction Bool := do
  if !(← get).memory.isCrypted then return false
  modifyMemory fun wallet => { wallet with vMasterKey := [] }
  return true

variable [Crypto] [PqhdKeys] [Aes] [KeyCheck]

/-- `Unlock` with a master key: every seed and every manager has to accept it, and the caches have
to agree with the seeds. `thorough` says which managers were checked before. -/
def unlockWith (vMasterKeyIn : Bytes) (thorough : Uint256 → Bool) : WalletAction Bool := do
  if vMasterKeyIn.length ≠ walletCryptoKeySize then return false
  let wallet := (← get).memory
  if !wallet.pqhdSeeds.entries.all fun entry =>
      entry.2.encrypted && (decryptPQHDSeed vMasterKeyIn entry.1 entry.2.cryptedSeed).isSome then
    return false
  match checkDecryptionKeys vMasterKeyIn thorough wallet.spkManagers.entries with
  | .error what => throw (.thrown what)
  | .ok false => return false
  | .ok true =>
    if !(← validateCaches (some vMasterKeyIn)) then
      throw (.thrown "PQHD cache does not match wallet seed; wallet may be corrupted")
    modifyMemory fun wallet => { wallet with vMasterKey := vMasterKeyIn }
    return true

/-- The loop of `Unlock` over the master keys. -/
def unlockLoop (strWalletPassphrase : Bytes) (thorough : Uint256 → Bool) :
    List (Sigma fun _ : Nat => CMasterKey) → WalletAction Bool
  | [] => return false
  | entry :: others =>
    match decryptMasterKey strWalletPassphrase entry.2 with
    | none => unlockLoop strWalletPassphrase thorough others
    | some plainMasterKey => do
        if ← unlockWith plainMasterKey thorough then return true
        unlockLoop strWalletPassphrase thorough others

/-- `Unlock` with a passphrase. -/
def unlock (strWalletPassphrase : Bytes) (thorough : Uint256 → Bool) : WalletAction Bool := do
  unlockLoop strWalletPassphrase thorough (← get).memory.mapMasterKeys.entries

end Tidecoin
