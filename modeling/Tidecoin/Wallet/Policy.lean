import Tidecoin.Wallet.Active
import Tidecoin.Wallet.Unlock

/-!
The policy of a wallet: which seeds and schemes its addresses come from. `SetPQHDPolicy` and
`SetPQHDSeedDefaults` of `wallet/wallet.cpp` change it in the memory, write it in a transaction,
create the descriptors it asks for and make them the active ones.

A manager is named by its key in `m_spk_managers`, which is its `GetID`.
-/

namespace Tidecoin

open Lib

def SchemeId.name : SchemeId → String
  | .falcon512 => "Falcon-512"
  | .falcon1024 => "Falcon-1024"
  | .mldsa44 => "ML-DSA-44"
  | .mldsa65 => "ML-DSA-65"
  | .mldsa87 => "ML-DSA-87"

def formatOutputType : OutputType → String
  | .legacy => "legacy"
  | .p2shSegwit => "p2sh-segwit"
  | .bech32 => "bech32"
  | .bech32pq => "bech32pq"
  | .unknown => "unknown"

/-- `DescriptorID`: the hash of the text of a descriptor. -/
class DescriptorHash where
  id : Descriptor → Uint256

/-- The handler of a `catch` for exceptions that returns their text. The end of the process is none.
-/
def returnException {α : Type} : Stop String → WalletAction (Except String α)
  | .thrown what => return .error what
  | .terminated => throw .terminated

/-- What a change of the flags registers: the flags before the first change of the transaction are
restored if it is aborted. -/
def flagsListener : Listener CWallet where
  onCommit wallet := { wallet with walletFlagsTxnSnapshot := none }
  onAbort wallet := wallet.walletFlagsTxnSnapshot.elim wallet fun flags =>
    { wallet with walletFlags := flags, walletFlagsTxnSnapshot := none }

/-- The snapshot of the flags is taken once in a transaction. -/
def snapshotFlags : WalletAction Unit := do
  if (← get).memory.walletFlagsTxnSnapshot.isNone then
    modifyMemory fun wallet => { wallet with walletFlagsTxnSnapshot := some wallet.walletFlags }
    registerTxnListener flagsListener

/-- `SetWalletFlagWithDB` and `UnsetWalletFlagWithDB` differ in their names and in how the flags
change. -/
def changeWalletFlagsWithDB (func : String) (change : UInt64 → UInt64) : WalletAction Unit := do
  let updatedFlags := change (← get).memory.walletFlags
  if !(← writeIC .flags updatedFlags) then
    throw (.thrown (func ++ ": writing wallet flags failed"))
  if ← hasActiveTxn then snapshotFlags
  modifyMemory fun wallet => { wallet with walletFlags := updatedFlags }

def unsetWalletFlagWithDB (flag : UInt64) : WalletAction Unit :=
  changeWalletFlagsWithDB "UnsetWalletFlagWithDB" fun flags => flags &&& ~~~flag

def unsetBlankWalletFlag : WalletAction Unit := unsetWalletFlagWithDB walletFlagBlankWallet

/-- The path of the descriptors of a policy, without the index. -/
def policyPath (schemePrefix : UInt8) (internal : Bool) : List UInt32 :=
  [Pqhd.purpose, Pqhd.coinType, schemePrefix.toUInt32, 0, if internal then 1 else 0]

/-- The descriptor `GeneratePQHDWalletDescriptor` has parsed. -/
def policyDescriptor (seedId : Uint256) (schemePrefix : UInt8) (type : OutputType)
    (internal : Bool) :
    Option Descriptor :=
  let key : PubkeyProvider := .pqhd 0 seedId
    ((policyPath schemePrefix internal).map fun component => component ||| Pqhd.hardened) .hardened
    schemePrefix
  match type with
  | .legacy => some (.pkh key)
  | .p2shSegwit => some (.sh (.wpkh key))
  | .bech32 => some (.wpkh key)
  | .bech32pq => some (.wsh512 (.pk key))
  | .unknown => none

/-- `GeneratePQHDWalletDescriptor`, at the time `now`. -/
def generatePQHDWalletDescriptor [DescriptorHash] (params : Params) (now : Nat) (seedId : Uint256)
    (schemePrefix : UInt8) (addrType : OutputType) (internal : Bool) (targetHeight : Int) :
    Except (Stop String) WalletDescriptor := do
  let some scheme := schemeFromPrefix schemePrefix
    | throw (.thrown s!"Unknown PQ scheme prefix: {schemePrefix}")
  let name := scheme.name
  if !isSchemeAllowedAtHeight scheme params.nAuxpowStartHeight targetHeight then
    throw (.thrown s!"PQ scheme {name} not allowed at height {targetHeight}")
  if addrType = .bech32pq && targetHeight < params.nAuxpowStartHeight then
    throw (.thrown s!"PQ v1 outputs not allowed at height {targetHeight}")
  let some desc := policyDescriptor seedId schemePrefix addrType internal | throw .terminated
  return ⟨⟨desc, now, 0, 0, 0⟩, DescriptorHash.id desc, ∅⟩

/-- The test of `FindPQHDDescriptorForPath` on a descriptor. -/
def matchesPath (desc : Descriptor) (type : OutputType) (internal : Bool) (seedId : Uint256)
    (schemePrefix : UInt8) : Bool :=
  desc.getOutputType = some type && desc.getPQHDKeyPathInfo.any fun info =>
    info.isRange && info.seedId = seedId && info.path.map Pqhd.masked =
      policyPath schemePrefix internal

/-- `FindPQHDDescriptorForPath`: the active manager is preferred. -/
def CWallet.findPQHDDescriptorForPath (wallet : CWallet) (type : OutputType) (internal : Bool)
    (seedId : Uint256) (schemePrefix : UInt8) : Option Uint256 :=
  let suits (manager : DescriptorScriptPubKeyMan) : Bool :=
    matchesPath manager.walletDescriptor.descriptor type internal seedId schemePrefix
  ((wallet.getScriptPubKeyMan type internal).filter fun id =>
    (wallet.spkManagers.lookup id).any suits).or
      ((wallet.spkManagers.entries.find? fun entry => suits entry.2).map Sigma.fst)

/-- The prefix of Falcon-512. -/
def falcon512Prefix : UInt8 := 0x07

/-- The lambda `normalize_scheme`. -/
def normalizeScheme (scheme : UInt8) : Except String UInt8 :=
  if scheme = 0 then return falcon512Prefix
  else if (schemeFromPrefix scheme).isNone then throw "Unknown PQHD policy scheme"
  else return scheme

/-- `LoadPQHDPolicy`, for the one version there is: what is not set gets its default. -/
def loadPQHDPolicy (policy : PQHDPolicy) : Except String PQHDPolicy := do
  let receive ← normalizeScheme policy.defaultReceiveScheme
  let change ← normalizeScheme
    (if policy.defaultChangeScheme = 0 then receive else policy.defaultChangeScheme)
  return {
    defaultReceiveScheme := receive
    defaultChangeScheme := change
    defaultSeedId := policy.defaultSeedId
    defaultChangeSeedId :=
      if policy.defaultChangeSeedId = 0 then policy.defaultSeedId
      else policy.defaultChangeSeedId }

variable [Crypto] [PqhdKeys] [Aes] [KeyCheck] [DescriptorHash]

/-- `SetupDescriptor` on a new manager: the manager with its key pool, or nothing. -/
def setupDescriptor (manager : DescriptorScriptPubKeyMan) :
    WalletAction (Option DescriptorScriptPubKeyMan) := do
  if !(← get).memory.isWalletFlagSet walletFlagDescriptors then throw .terminated
  if !(← writeIC (.walletDescriptor manager.getID) manager.record) then
    throw (.thrown "SetupDescriptor: writing descriptor failed")
  match ← manager.topUpWithDB 0 true with
  | none => return none
  | some manager =>
    unsetBlankWalletFlag
    return some manager

/-- A new manager of an encrypted wallet has to accept the master key, or to be encrypted. -/
def acceptMasterKey (manager : DescriptorScriptPubKeyMan) : WalletAction Bool := do
  let wallet := (← get).memory
  if !wallet.isCrypted then return true
  match manager.checkDecryptionKey wallet.vMasterKey false with
  | .error what => throw (.thrown what)
  | .ok true => return true
  | .ok false => manager.encrypt wallet.vMasterKey

/-- The new manager in the wallet, `AddScriptPubKeyManWithDb`; it goes again if the transaction is
aborted. -/
def addCreatedManager (id : Uint256) (manager : DescriptorScriptPubKeyMan) : WalletAction Unit := do
  modifyMemory fun wallet => { wallet with spkManagers := wallet.spkManagers.insert id manager }
  if ← hasActiveTxn then
    registerTxnListener ⟨fun wallet => wallet, fun wallet => wallet.removeScriptPubKeyMan id⟩

/-- The descriptor of `CreatePQHDDescriptorForPathWithDb`, once it is generated. -/
def createManager (wDesc : WalletDescriptor) : WalletAction (Except String (Option Uint256)) := do
  let wallet := (← get).memory
  let manager := DescriptorScriptPubKeyMan.new wDesc wallet.keypoolSize
  if !(← acceptMasterKey manager) then return .error "Could not encrypt PQHD descriptor"
  if wDesc.id ∈ wallet.spkManagers then return .ok (some wDesc.id)
  match ← setupDescriptor manager with
  | none => return .error "Could not set up PQHD descriptor keypool"
  | some manager =>
    addCreatedManager wDesc.id manager
    return .ok (some wDesc.id)

/-- `CreatePQHDDescriptorForPathWithDb`: the manager of the descriptor, or none where the wallet
cannot create one. -/
def createPQHDDescriptorForPathWithDb (params : Params) (now : Nat) (type : OutputType)
    (internal : Bool) (seedId : Uint256) (schemePrefix : UInt8) (targetHeight : Int) :
    WalletAction (Except String (Option Uint256)) := do
  let wallet := (← get).memory
  if !wallet.isWalletFlagSet walletFlagDescriptors || wallet.isWalletFlagSet
    walletFlagExternalSigner then
    return .ok none
  if !wallet.havePQHDSeed seedId then return .ok none
  if wallet.isCrypted && wallet.isLocked then return .ok none
  match generatePQHDWalletDescriptor params now seedId schemePrefix type internal targetHeight with
  | .error stop => returnException stop
  | .ok wDesc => tryCatch (createManager wDesc) returnException

/-- The end of a pass of the loop: the manager becomes the active one. -/
def bindDesired (desired : Uint256) (type : OutputType) (internal : Bool) :
    WalletAction (Except String Unit) := do
  if (← get).memory.getScriptPubKeyMan type internal = some desired then return .ok ()
  tryCatch (do
    addActiveScriptPubKeyManWithDb desired type internal
    return .ok ()) returnException

/-- What `preserve_active` does with an active manager: it stays, if it is one of the type. -/
def CWallet.preserved (wallet : CWallet) (type : OutputType) (internal : Bool) :
    Option (Except String Unit) :=
  (wallet.getScriptPubKeyMan type internal).map fun active =>
    match wallet.spkManagers.lookup active with
    | none => .error "Invalid active descriptor manager"
    | some manager =>
      let descriptor := manager.walletDescriptor.descriptor
      if !descriptor.isSingleType || descriptor.getOutputType ≠ some type then
        .error "Active descriptor does not match its output type"
      else .ok ()

/-- A descriptor that may not be created at a height. -/
def ineligible (params : Params) (targetHeight : Int) (scheme : SchemeId) (type : OutputType) :
    Bool :=
  !isSchemeAllowedAtHeight scheme params.nAuxpowStartHeight targetHeight ||
    (type = .bech32pq && targetHeight < params.nAuxpowStartHeight)

def missingDescriptor (type : OutputType) (internal : Bool) : String :=
  let output := formatOutputType type
  s!"Missing PQHD descriptor for output={output} internal={internal}"

/-- A pass of the loop of `SyncActiveScriptPubKeyMansWithPQHDPolicy`, for the seed and the scheme of
the kind. -/
def syncTarget (params : Params) (now : Nat) (createMissingDescriptors preserveActive : Bool)
    (seedId : Uint256) (schemePrefix : UInt8) (scheme : SchemeId) (internal : Bool)
    (type : OutputType) : WalletAction (Except String Unit) := do
  let wallet := (← get).memory
  match if preserveActive then wallet.preserved type internal else none with
  | some kept => return kept
  | none =>
    match wallet.findPQHDDescriptorForPath type internal seedId schemePrefix with
    | some desired => bindDesired desired type internal
    | none =>
      let targetHeight := wallet.targetHeightForOutputs
      if ineligible params targetHeight scheme type then return .ok ()
      if !createMissingDescriptors then return .error (missingDescriptor type internal)
      match ← createPQHDDescriptorForPathWithDb params now type internal seedId schemePrefix
          targetHeight with
      | .error error => return .error error
      | .ok none => return .error (missingDescriptor type internal)
      | .ok (some desired) => bindDesired desired type internal

/-- The schemes of a policy. -/
structure PolicySchemes where
  receive : SchemeId
  change : SchemeId

/-- The kinds and types in the order of the loops. -/
def syncTargets : List (Bool × OutputType) :=
  [false, true].flatMap fun internal => outputTypes.map fun type => (internal, type)

/-- The loops of `SyncActiveScriptPubKeyMansWithPQHDPolicy`. -/
def syncLoop (params : Params) (now : Nat) (createMissingDescriptors preserveActive : Bool)
    (policy : PQHDPolicy) (schemes : PolicySchemes) :
    List (Bool × OutputType) → WalletAction (Except String Unit)
  | [] => return .ok ()
  | (internal, type) :: others => do
      match ← syncTarget params now createMissingDescriptors preserveActive
          (if internal then policy.defaultChangeSeedId else policy.defaultSeedId)
          (if internal then policy.defaultChangeScheme else policy.defaultReceiveScheme)
          (if internal then schemes.change else schemes.receive) internal type with
      | .error error => return .error error
      | .ok () =>
        syncLoop params now createMissingDescriptors preserveActive policy schemes others

/-- The checks of `SyncActiveScriptPubKeyMansWithPQHDPolicy` on the policy. -/
def CWallet.syncCheck (wallet : CWallet) (policy : PQHDPolicy) : Except String PolicySchemes := do
  if policy.defaultSeedId = 0 || policy.defaultChangeSeedId = 0 then
    throw "PQHD default seed id is not set"
  if !wallet.havePQHDSeed policy.defaultSeedId || !wallet.havePQHDSeed policy.defaultChangeSeedId
    then
    throw "PQHD default seed id not found in wallet"
  let some receive := schemeFromPrefix policy.defaultReceiveScheme
    | throw "PQHD default scheme id is unknown"
  let some change := schemeFromPrefix policy.defaultChangeScheme
    | throw "PQHD default scheme id is unknown"
  return ⟨receive, change⟩

def syncActiveScriptPubKeyMansWithPQHDPolicy (params : Params) (now : Nat)
    (createMissingDescriptors preserveActive : Bool) : WalletAction (Except String Unit) := do
  let wallet := (← get).memory
  match wallet.pqhdPolicy with
  | none => return .ok ()
  | some policy =>
    if !wallet.isWalletFlagSet walletFlagDescriptors then return .ok ()
    if wallet.isWalletFlagSet walletFlagExternalSigner then return .ok ()
    match wallet.syncCheck policy with
    | .error error => return .error error
    | .ok schemes =>
      syncLoop params now createMissingDescriptors preserveActive policy schemes syncTargets

def restorePreviousPolicy (previous : CWallet) : WalletAction Unit :=
  modifyMemory fun wallet => { wallet with
    pqhdPolicy := previous.pqhdPolicy
    walletFlags := previous.walletFlags }

/-- The lambda `rollback`: the policy is restored before the transaction is aborted. -/
def rollbackPolicy (previous : CWallet) (error : String) : WalletAction (Except String Unit) := do
  restorePreviousPolicy previous
  let _ ← txnAbort
  return .error error

/-- The transaction that `SetPQHDPolicy` and `SetPQHDSeedDefaults` have in common but for its name.
-/
def storePolicy (params : Params) (now : Nat) (what : String) (policy : PQHDPolicy) :
    WalletAction (Except String Unit) := do
  let previous := (← get).memory
  modifyMemory fun wallet => { wallet with pqhdPolicy := some policy }
  withBatch do
    if !(← txnBegin) then
      restorePreviousPolicy previous
      return .error s!"Failed to start {what} transaction"
    if !(← writeIC .pqhdPolicy policy) then
      return ← rollbackPolicy previous "Failed to write PQHD policy"
    match ← tryCatch (syncActiveScriptPubKeyMansWithPQHDPolicy params now true false)
      returnException with
    | .error error => rollbackPolicy previous error
    | .ok () =>
      if ← txnCommit then return .ok ()
      rollbackPolicy previous s!"Failed to commit {what} transaction"

/-- The checks both functions make first. -/
def CWallet.policyAllowed (wallet : CWallet) (requires : String) : Except String PQHDPolicy := do
  if wallet.isWalletFlagSet (walletFlagDisablePrivateKeys ||| walletFlagExternalSigner) then
    throw "Private PQHD seeds are disabled for this wallet"
  if !wallet.isWalletFlagSet walletFlagDescriptors then throw requires
  let some policy := wallet.pqhdPolicy | throw "PQHD policy not initialized"
  return policy

/-- The lambda `validate_scheme`. -/
def validateScheme (params : Params) (targetHeight : Int) (scheme : UInt8) (field : String) :
    Except String Unit := do
  let some info := schemeFromPrefix scheme | throw s!"{field} scheme id {scheme} is unknown"
  let name := info.name
  let activation := params.nAuxpowStartHeight
  if !isSchemeAllowedAtHeight info params.nAuxpowStartHeight targetHeight then
    throw s!"{field} scheme {name} is not allowed before auxpow activation height {activation}"

/-- The policy `SetPQHDPolicy` makes of the current one. -/
def PQHDPolicy.withSchemes (policy : PQHDPolicy) (params : Params) (targetHeight : Int)
    (receiveScheme changeScheme : Option UInt8) : Except String PQHDPolicy := do
  if let some scheme := receiveScheme then validateScheme params targetHeight scheme "Receive"
  if let some scheme := changeScheme then validateScheme params targetHeight scheme "Change"
  let receive := receiveScheme.getD policy.defaultReceiveScheme
  let change := changeScheme.getD policy.defaultChangeScheme
  if receive = 0 then throw "Default receive scheme must be set"
  if policy.defaultSeedId = 0 then throw "Default PQHD seed id is not set"
  return {
    defaultReceiveScheme := receive
    defaultChangeScheme := if change = 0 then receive else change
    defaultSeedId := policy.defaultSeedId
    defaultChangeSeedId :=
      if policy.defaultChangeSeedId = 0 then policy.defaultSeedId
      else policy.defaultChangeSeedId }

def setPQHDPolicy (params : Params) (now : Nat) (receiveScheme changeScheme : Option UInt8) :
    WalletAction (Except String Unit) := do
  let wallet := (← get).memory
  match wallet.policyAllowed "PQHD policy requires descriptor wallet" with
  | .error error => return .error error
  | .ok policy =>
    match policy.withSchemes params wallet.targetHeightForOutputs receiveScheme changeScheme with
    | .error error => return .error error
    | .ok policy => storePolicy params now "PQHD policy update" policy

/-- The policy `SetPQHDSeedDefaults` makes of the current one. -/
def CWallet.withSeeds (wallet : CWallet) (policy : PQHDPolicy)
    (receiveSeedId changeSeedId : Uint256) :
    Except String PQHDPolicy := do
  if !wallet.havePQHDSeed receiveSeedId then throw "Receive seed id not found in wallet"
  if !wallet.havePQHDSeed changeSeedId then throw "Change seed id not found in wallet"
  return { policy with
    defaultSeedId := receiveSeedId
    defaultChangeSeedId := changeSeedId }

def setPQHDSeedDefaults (params : Params) (now : Nat) (receiveSeedId changeSeedId : Uint256) :
    WalletAction (Except String Unit) := do
  let wallet := (← get).memory
  match wallet.policyAllowed "PQHD seed defaults require descriptor wallet" with
  | .error error => return .error error
  | .ok policy =>
    match wallet.withSeeds policy receiveSeedId changeSeedId with
    | .error error => return .error error
    | .ok policy => storePolicy params now "PQHD seed defaults update" policy

end Tidecoin
