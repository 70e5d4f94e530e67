import Tidecoin.Validation.MempoolAccept

/-!
What the node remembers about a rejected transaction: `TxDownloadManagerImpl::MempoolRejectedTx` of
`node/txdownloadman_impl.cpp`. A rolling filter is the list of the hashes put into it, in order;
what it answers is a parameter, as are the orphanage and the request tracker.

A hash in the recent-rejects filter is not requested again. The wtxid of a transaction without
witness is its txid, so a transaction that was only stripped of its witness must not get there: a
peer could keep the real one from being downloaded. `policyScriptChecks` recognises such a
transaction by the programs it spends, but only those of version 0.
-/

namespace Tidecoin

open Lib

abbrev NodeId := Int

inductive GenTxid where
  | txid (hash : Uint256)
  | wtxid (hash : Uint256)
deriving DecidableEq, Repr

def GenTxid.toUint256 : GenTxid → Uint256
  | .txid hash => hash
  | .wtxid hash => hash

structure TxDownloadConnectionInfo where
  preferred : Bool
  relayPermissions : Bool
  wtxidRelay : Bool
deriving DecidableEq, Repr

structure PackageToValidate where
  txns : List CTransaction
  senders : List NodeId
deriving DecidableEq, Repr

structure RejectedTxTodo where
  shouldAddExtraCompactTx : Bool
  uniqueParents : List Uint256
  packageToValidate : Option PackageToValidate
deriving DecidableEq, Repr

/-- The operations of `TxOrphanage` and `TxRequestTracker` that are used here, and the answers of a
rolling filter. Times are in microseconds. -/
class TxDownloadParts (Orphanage TxRequest : Type) where
  haveTx : Orphanage → (wtxid : Uint256) → Bool
  haveTxFromPeer : Orphanage → (wtxid : Uint256) → NodeId → Bool
  addTx : Orphanage → CTransaction → NodeId → Orphanage
  eraseTx : Orphanage → (wtxid : Uint256) → Orphanage
  getChildrenFromSamePeer : Orphanage → (parent : CTransaction) → NodeId → List CTransaction
  count : TxRequest → NodeId → Nat
  countInFlight : TxRequest → NodeId → Nat
  receivedInv : TxRequest → NodeId → GenTxid → (preferred : Bool) → (reqtime : Int) → TxRequest
  forgetTxHash : TxRequest → (txhash : Uint256) → TxRequest
  getCandidatePeers : TxRequest → (txhash : Uint256) → List NodeId
  filterContains : (inserted : List Uint256) → Uint256 → Bool

/-- `TxDownloadManagerImpl`. -/
structure TxDownloadManager (Orphanage TxRequest : Type) where
  mempool : List CTransaction
  orphanage : Orphanage
  txrequest : TxRequest
  recentRejects : List Uint256
  recentRejectsReconsiderable : List Uint256
  recentConfirmed : List Uint256
  peerInfo : NodeId → Option TxDownloadConnectionInfo
  numWtxidPeers : Nat

def maxPeerTxRequestInFlight : Nat := 100

def maxPeerTxAnnouncements : Nat := 5000

def txidRelayDelay : Int := 2000000

def nonprefPeerTxDelay : Int := 2000000

def overloadedPeerTxDelay : Int := 2000000

/-- `GetUniqueParents`: identifiers are compared by their bytes. -/
def getUniqueParents (tx : CTransaction) : List Uint256 :=
  ((tx.vin.map fun txin => txin.prevout.hash).mergeSort fun a b => a.toBytes ≤ b.toBytes).dedup

/-- `GetPackageHash`: over the wtxids in ascending order of their last byte first. -/
def getPackageHash [Crypto] (transactions : List CTransaction) : Uint256 :=
  let wtxids := (transactions.map CTransaction.getWitnessHash).mergeSort fun lhs rhs =>
    lhs.toBytes.reverse ≤ rhs.toBytes.reverse
  Uint256.ofBytes (Crypto.sha256 (wtxids.flatMap Uint256.toBytes))

namespace TxDownloadManager

variable {Orphanage TxRequest : Type} [TxDownloadParts Orphanage TxRequest]

section

variable (node : TxDownloadManager Orphanage TxRequest) (hash : Uint256)
include hash

/-- `RecentRejectsFilter().contains`. -/
def inRecentRejects : Bool :=
  TxDownloadParts.filterContains Orphanage TxRequest node.recentRejects hash

/-- `RecentRejectsReconsiderableFilter().contains`. -/
def inReconsiderable : Bool :=
  TxDownloadParts.filterContains Orphanage TxRequest node.recentRejectsReconsiderable hash

/-- `RecentRejectsFilter().insert`. -/
def rejectsInsert : TxDownloadManager Orphanage TxRequest :=
  { node with recentRejects := node.recentRejects ++ [hash] }

/-- `RecentRejectsReconsiderableFilter().insert`. -/
def reconsiderableInsert : TxDownloadManager Orphanage TxRequest :=
  { node with recentRejectsReconsiderable := node.recentRejectsReconsiderable ++ [hash] }

end

def forgetTxHash (node : TxDownloadManager Orphanage TxRequest) (hash : Uint256) :
    TxDownloadManager Orphanage TxRequest :=
  { node with txrequest := TxDownloadParts.forgetTxHash Orphanage node.txrequest hash }

/-- `m_orphanage->EraseTx`. -/
def eraseOrphan (node : TxDownloadManager Orphanage TxRequest) (wtxid : Uint256) :
    TxDownloadManager Orphanage TxRequest :=
  { node with orphanage := TxDownloadParts.eraseTx TxRequest node.orphanage wtxid }

def receivedInv (node : TxDownloadManager Orphanage TxRequest) (nodeid : NodeId) (gtxid : GenTxid)
    (preferred : Bool) (reqtime : Int) : TxDownloadManager Orphanage TxRequest :=
  { node with
    txrequest :=
      TxDownloadParts.receivedInv Orphanage node.txrequest nodeid gtxid preferred reqtime }

def maybeAddOrphanResolutionCandidate (node : TxDownloadManager Orphanage TxRequest)
    (uniqueParents : List Uint256) (wtxid : Uint256) (nodeid : NodeId) (now : Int) :
    Bool × TxDownloadManager Orphanage TxRequest :=
  match node.peerInfo nodeid with
  | none => (false, node)
  | some info =>
    if TxDownloadParts.haveTxFromPeer TxRequest node.orphanage wtxid nodeid then (false, node)
    else if !info.relayPermissions ∧ maxPeerTxAnnouncements <
        TxDownloadParts.count Orphanage node.txrequest nodeid + uniqueParents.length then
      (false, node)
    else
      let overloaded := !info.relayPermissions && maxPeerTxRequestInFlight ≤
        TxDownloadParts.countInFlight Orphanage node.txrequest nodeid
      let delay := (if !info.preferred then nonprefPeerTxDelay else 0) +
        (if node.numWtxidPeers > 0 then txidRelayDelay else 0) +
        (if overloaded then overloadedPeerTxDelay else 0)
      (true, uniqueParents.foldl (fun node parentTxid =>
        node.receivedInv nodeid (.txid parentTxid) info.preferred (now + delay)) node)

/-- The loop over the peers that may help to resolve the orphan. -/
def addOrphan (ptx : CTransaction) (wtxid : Uint256) (uniqueParents : List Uint256) (now : Int)
    (node : TxDownloadManager Orphanage TxRequest) (candidates : List NodeId) :
    TxDownloadManager Orphanage TxRequest :=
  candidates.foldl (fun node nodeid =>
    let (added, node) := node.maybeAddOrphanResolutionCandidate uniqueParents wtxid nodeid now
    if added then
      { node with orphanage := TxDownloadParts.addTx TxRequest node.orphanage ptx nodeid }
    else node) node

variable [Crypto]

section

variable (node : TxDownloadManager Orphanage TxRequest)

/-- `m_mempool.exists`. -/
def mempoolExists : GenTxid → Bool
  | .txid hash => node.mempool.any fun tx => tx.getHash = hash
  | .wtxid hash => node.mempool.any fun tx => tx.getWitnessHash = hash

def alreadyHaveTx (gtxid : GenTxid) (includeReconsiderable : Bool) : Bool :=
  TxDownloadParts.haveTx TxRequest node.orphanage gtxid.toUint256 ||
    (includeReconsiderable && node.inReconsiderable gtxid.toUint256) ||
    TxDownloadParts.filterContains Orphanage TxRequest node.recentConfirmed gtxid.toUint256 ||
    node.inRecentRejects gtxid.toUint256 || node.mempoolExists gtxid

def find1P1CPackage (ptx : CTransaction) (nodeid : NodeId) : Option PackageToValidate :=
  let candidates := TxDownloadParts.getChildrenFromSamePeer TxRequest node.orphanage ptx nodeid
  (candidates.find? fun child =>
    !node.inReconsiderable (getPackageHash [ptx, child]) &&
      !node.inRecentRejects child.getHash).map fun child => ⟨[ptx, child], [nodeid, nodeid]⟩

end

/-- The loop over the parents of an orphan: one was rejected, or two are only reconsiderable. -/
def rejectedParents (node : TxDownloadManager Orphanage TxRequest) :
    (rejectedParentReconsiderable : Option Uint256) → List Uint256 → Bool
  | _, [] => false
  | rejected, parentTxid :: parents =>
    if node.inRecentRejects parentTxid then true
    else if node.inReconsiderable parentTxid && !node.mempoolExists (.txid parentTxid) then
      if rejected.isSome then true else rejectedParents node (some parentTxid) parents
    else rejectedParents node rejected parents

variable (node : TxDownloadManager Orphanage TxRequest) (ptx : CTransaction)

/-- `MempoolRejectedTx` for missing inputs. -/
def rejectedOrphan (nodeid : NodeId) (now : Int) (firstTimeFailure : Bool) :
    RejectedTxTodo × TxDownloadManager Orphanage TxRequest :=
  let txid := ptx.getHash
  let wtxid := ptx.getWitnessHash
  if firstTimeFailure && !node.inRecentRejects wtxid then
    let uniqueParents := getUniqueParents ptx
    if !node.rejectedParents none uniqueParents then
      let uniqueParents := uniqueParents.filter fun parent =>
        !node.alreadyHaveTx (.txid parent) false
      let addExtraCompactTx := !TxDownloadParts.haveTx TxRequest node.orphanage wtxid
      let candidates := [nodeid] ++
        TxDownloadParts.getCandidatePeers Orphanage node.txrequest txid ++
        (if ptx.hasWitness then
          TxDownloadParts.getCandidatePeers Orphanage node.txrequest wtxid else [])
      let node := addOrphan ptx wtxid uniqueParents now node candidates
      (⟨addExtraCompactTx, uniqueParents, none⟩, (node.forgetTxHash txid).forgetTxHash wtxid)
    else
      (⟨firstTimeFailure, [], none⟩, (((node.rejectsInsert txid).rejectsInsert wtxid).forgetTxHash
        txid).forgetTxHash wtxid)
  else (⟨firstTimeFailure, [], none⟩, node)

/-- `MempoolRejectedTx` for a failure that is neither a missing input nor a stripped witness. -/
def rejectedForGood (result : TxValidationResult) (nodeid : NodeId) (firstTimeFailure : Bool) :
    RejectedTxTodo × TxDownloadManager Orphanage TxRequest :=
  let txid := ptx.getHash
  let wtxid := ptx.getWitnessHash
  let (package, node) :=
    if result = .reconsiderable then
      let node := node.reconsiderableInsert wtxid
      (if firstTimeFailure then node.find1P1CPackage ptx nodeid else none, node)
    else (none, node.rejectsInsert wtxid)
  let node := node.forgetTxHash wtxid
  let node := if result = .inputsNotStandard ∧ ptx.hasWitness then
    (node.rejectsInsert txid).forgetTxHash txid else node
  (⟨firstTimeFailure, [], package⟩, node)

/-- `MempoolRejectedTx`, at time `now`. -/
def mempoolRejectedTx (state : TxInvalid) (nodeid : NodeId) (now : Int) (firstTimeFailure : Bool) :
    RejectedTxTodo × TxDownloadManager Orphanage TxRequest :=
  if state.result = .missingInputs then node.rejectedOrphan ptx nodeid now firstTimeFailure
  else
    let (todo, node) :=
      if state.result = .witnessStripped then (⟨false, [], none⟩, node)
      else node.rejectedForGood ptx state.result nodeid firstTimeFailure
    (todo, node.eraseOrphan ptx.getWitnessHash)

lemma mempoolRejectedTx_recentRejects
    (state : TxInvalid) (nodeid : NodeId) (now : Int) (firstTimeFailure : Bool) :
    (state.result = .witnessStripped →
      (node.mempoolRejectedTx ptx state nodeid now firstTimeFailure).2.recentRejects =
        node.recentRejects) ∧ (state.result = .notStandard →
      (node.mempoolRejectedTx ptx state nodeid now firstTimeFailure).2.recentRejects =
        node.recentRejects ++ [ptx.getWitnessHash]) := by
  unfold mempoolRejectedTx rejectedForGood
  constructor
  · intro hresult
    simp [hresult, eraseOrphan]
  · intro hresult
    simp [hresult, eraseOrphan, forgetTxHash, rejectsInsert]

end TxDownloadManager

/-- A transaction without witness fails the policy checks. That it is taken for a stripped one, and
not remembered as rejected, if it spends a program that requires a witness, holds exactly when one
of the programs it then spends has version 0. -/
theorem stripped_classified_iff [Crypto] [TransactionChecker] {Orphanage TxRequest : Type}
    [TxDownloadParts Orphanage TxRequest] {params : Params} {tip : Option CBlockIndex}
    {tx : CTransaction} {view : COutPoint → Coin}
    {validationCache : ValidationCache} {state : TxInvalid} (hwitness : tx.hasWitness = false)
    (hfail : policyScriptChecks params tip tx view validationCache = .error (.invalid state)) :
    (SpendsProgram view tx (requiresWitness (policyScriptFlags params (nextHeight tip))) →
      state.result = .witnessStripped ∧
        ∀ (node : TxDownloadManager Orphanage TxRequest) (nodeid : NodeId) (now : Int)
          (firstTimeFailure : Bool),
          (node.mempoolRejectedTx tx state nodeid now firstTimeFailure).2.recentRejects =
            node.recentRejects) ↔
      (SpendsProgram view tx (requiresWitness (policyScriptFlags params (nextHeight tip))) →
        SpendsProgram view tx isVersionZeroProgram) := by
  refine imp_congr_right fun _ => ?_
  rcases policyScriptChecks_result hfail with ⟨-, hzero, hresult⟩ | ⟨hother, hresult⟩
  · refine ⟨fun _ => hzero, fun _ => ⟨hresult, fun node nodeid now firstTimeFailure => ?_⟩⟩
    exact (node.mempoolRejectedTx_recentRejects tx state nodeid now firstTimeFailure).1 hresult
  · constructor
    · rintro ⟨hstripped, -⟩
      rw [hresult] at hstripped
      cases hstripped
    · exact fun hzero => absurd ⟨hwitness, hzero⟩ hother

/-- A node without orphans and requests, whose filters are exact. -/
@[reducible] def exactFilterParts : TxDownloadParts Unit Unit where
  haveTx _ _ := false
  haveTxFromPeer _ _ _ := false
  addTx _ _ _ := ()
  eraseTx _ _ := ()
  getChildrenFromSamePeer _ _ _ := []
  count _ _ := 0
  countInFlight _ _ := 0
  receivedInv _ _ _ _ _ := ()
  forgetTxHash _ _ := ()
  getCandidatePeers _ _ := []
  filterContains inserted hash := hash ∈ inserted

/-- A spend of one output with nothing but its outpoint. -/
def bareSpend : CTransaction := ⟨[⟨⟨1, 0⟩, [], sequenceFinal, []⟩], [⟨5, [op1]⟩], 1, 0⟩

/-- Every outpoint holds an output with the script. -/
def paidTo (scriptPubKey : Bytes) (_ : COutPoint) : Coin := .ofTxOut ⟨9, scriptPubKey⟩ 7 false

/-- The policy checks of `bareSpend` on an output with the script, one block after the activation.
-/
def bareSpendChecks (scriptPubKey : Bytes) : Except (Failure TxValidationResult) ValidationCache :=
  @policyScriptChecks Crypto.digits .rejecting testNetParams
    (some { firstEntry with nHeight := 1000 }) bareSpend (paidTo scriptPubKey)
    ⟨3, CuckooCache.setup 0 2 1⟩

/-- The state a failed check leaves. -/
def invalidState {α : Type} : Except (Failure TxValidationResult) α → Option TxInvalid
  | .error (.invalid state) => some state
  | _ => none

lemma exists_of_invalidState {α : Type} {run : Except (Failure TxValidationResult) α}
    {result : TxValidationResult} (hrun : (invalidState run).map Invalid.result = some result) :
    ∃ state, run = .error (.invalid state) ∧ state.result = result := by
  obtain ⟨state, hstate, hresult⟩ := Option.map_eq_some_iff.1 hrun
  unfold invalidState at hstate
  split at hstate
  · cases hstate
    exact ⟨state, rfl, hresult⟩
  · cases hstate

/-- A key-hash program without its witness. -/
theorem stripped_classified_iff_keyHash : let program := [op0, 0x14] ++ List.replicate 20 1
    @SpendsProgram .digits (paidTo program) bareSpend isVersionZeroProgram ∧
      ∃ state, bareSpendChecks program = .error (.invalid state) ∧
        state.result = .witnessStripped := by
  intro program
  have hzero : @SpendsProgram .digits (paidTo program) bareSpend isVersionZeroProgram := by
    decide +kernel
  have hrequires : @SpendsProgram .digits (paidTo program) bareSpend
      (requiresWitness (policyScriptFlags testNetParams 1001)) := by decide +kernel
  have hrun : (invalidState (bareSpendChecks program)).map Invalid.result =
      some .witnessStripped := by decide +kernel
  obtain ⟨state, hstate, -⟩ := exists_of_invalidState hrun
  have hclassified := (@stripped_classified_iff .digits .rejecting Unit Unit
    exactFilterParts _ _ _ _ _ _ rfl hstate).2 (fun _ => hzero) hrequires
  exact ⟨hzero, state, hstate, hclassified.1⟩

/-- A 64-byte program of version 1 without its witness, after the activation: the failure is not
recognised as a missing witness, and the transaction id is remembered as rejected. -/
theorem stripped_extended_remembered : let program := [op1, 0x40] ++ List.replicate 64 1
    bareSpend.hasWitness = false ∧
      @SpendsProgram .digits (paidTo program) bareSpend
        (requiresWitness (policyScriptFlags testNetParams 1001)) ∧
      ∃ state, bareSpendChecks program = .error (.invalid state) ∧ state.result ≠ .witnessStripped ∧
        ∀ (node : TxDownloadManager Unit Unit) (nodeid : NodeId) (now : Int)
          (firstTimeFailure : Bool),
          @CTransaction.getHash .digits bareSpend ∈
            (@TxDownloadManager.mempoolRejectedTx Unit Unit exactFilterParts .digits node
              bareSpend state nodeid now firstTimeFailure).2.recentRejects := by
  intro program
  have hrequires : @SpendsProgram .digits (paidTo program) bareSpend
      (requiresWitness (policyScriptFlags testNetParams 1001)) := by decide +kernel
  have hrun : (invalidState (bareSpendChecks program)).map Invalid.result = some .notStandard := by
    decide +kernel
  obtain ⟨state, hstate, hresult⟩ := exists_of_invalidState hrun
  refine ⟨rfl, hrequires, state, hstate, ?_, fun node nodeid now firstTimeFailure => ?_⟩
  · rw [hresult]
    decide
  · have hremembered := (@TxDownloadManager.mempoolRejectedTx_recentRejects Unit Unit
      exactFilterParts .digits node bareSpend state nodeid now firstTimeFailure).2 hresult
    rw [hremembered]
    exact List.mem_append_right _ (List.mem_singleton.2 rfl)

end Tidecoin
