import Tidecoin.HeadersSync.State
import Tidecoin.Validation.Accept

/-!
The handling of a `headers` message by `net_processing.cpp`: the work check before anything else,
the low-work sync session of the peer, and the hand-over of headers to the block index. What the
node sends in answer is not modelled, nor is the punishment of the peer.
-/

namespace Tidecoin

open Lib

/-- The options of a node: the consensus parameters, `m_options.minimum_chain_work` and
`m_opts.max_headers_result`. -/
structure NodeOptions where
  params : Params
  minimumChainWork : ArithUint256
  maxHeadersResult : Nat

/-- A `HeadersSyncState` object: its fixed members and its state. -/
structure SyncSession where
  cfg : SyncConfig
  state : HeadersSyncState

/-- The node: its chain state and the sync session of each peer. -/
structure Node where
  chainman : ChainstateManager
  headersSync : Nat → Option SyncSession

/-- What the environment contributes to the handling of a message: the time, the random members of
a new session, and whether the peer has the `NoBan` permission. -/
structure MessageContext where
  now : Int
  commitOffset : Fin headerCommitmentPeriod
  hasher : Uint256 → UInt64
  noBan : Bool

namespace Node

/-- The node with another session for a peer. -/
def setSession (node : Node) (peer : Nat) (session : Option SyncSession) : Node :=
  { node with
    headersSync := fun other => if other = peer then session else node.headersSync other }

@[simp] lemma setSession_headersSync (node : Node) (peer other : Nat)
    (session : Option SyncSession) :
    (node.setSession peer session).headersSync other =
      if other = peer then session else node.headersSync other := rfl

end Node

namespace ChainstateManager

/-- `GetAntiDoSWorkThreshold`: the work of the tip less 144 blocks like it, but at least the
minimum chain work. -/
def getAntiDoSWorkThreshold (opts : NodeOptions) (chainman : ChainstateManager) : ArithUint256 :=
  let nearChaintipWork : ArithUint256 :=
    match chainman.activeTip with
    | none => 0
    | some tip =>
      let buffer := 144 * getBlockProof tip.nBits
      if buffer < tip.nChainWork then tip.nChainWork - buffer else 0
  if nearChaintipWork < opts.minimumChainWork then opts.minimumChainWork else nearChaintipWork

def activeChainContains (chainman : ChainstateManager) (pindex : CBlockIndex) : Bool :=
  chainman.activeTip.any fun tip => tip.getAncestor pindex.nHeight = some pindex

def isAncestorOfBestHeaderOrTip (chainman : ChainstateManager) (header : Option CBlockIndex) :
    Bool :=
  header.any fun pindex =>
    chainman.bestHeader.any (fun best => best.getAncestor pindex.nHeight = some pindex) ||
      chainman.activeChainContains pindex

end ChainstateManager

def calculateClaimedHeadersWork (headers : List CBlockHeader) : ArithUint256 :=
  headers.foldl (fun work header => work + getBlockProof header.nBits) 0

variable [Crypto]

/-- The loop of `CheckHeadersAreContinuous`. A zero hash counts as no predecessor. -/
def continuousFrom (hashLastBlock : Uint256) : List CBlockHeader → Bool
  | [] => true
  | header :: headers =>
    (hashLastBlock = 0 || header.hashPrevBlock = hashLastBlock) && continuousFrom
      header.getHash headers

def checkHeadersPoW (params : Params) (headers : List CBlockHeader) (startHeight : Option Int) :
    Bool :=
  hasValidProofOfWork params headers startHeight && continuousFrom 0 headers

/-- What `IsContinuationOfLowWorkHeadersSync` leaves: the peer's session, the headers to go on with
and the height at which the first of them was checked, and its result. -/
structure SyncOutcome where
  session : Option SyncSession
  headers : List CBlockHeader
  checkedHeight : Option Int
  success : Bool

def isContinuationOfLowWorkHeadersSync (opts : NodeOptions) (session : Option SyncSession)
    (headers : List CBlockHeader) (checkedHeight : Option Int) : SyncOutcome :=
  match session with
  | none => ⟨none, headers, checkedHeight, false⟩
  | some session =>
    let full : Bool := headers.length = opts.maxHeadersResult
    let (result, state) := session.state.processNextHeaders session.cfg headers full
    let left := if state.downloadState = .final then none else some ⟨session.cfg, state⟩
    if result.success then ⟨left, result.powValidatedHeaders, result.checkedStartHeight, true⟩
    else ⟨left, headers, checkedHeight, false⟩

omit [Crypto] in
/-- The constructor of a session that starts at an entry of the index. -/
def newSyncConfig (opts : NodeOptions) (context : MessageContext) (chainStart : CBlockIndex)
    (minimumRequiredWork : ArithUint256) : SyncConfig where
  params := opts.params
  chainStart := chainStart
  minimumRequiredWork := minimumRequiredWork
  commitOffset := context.commitOffset
  hasher := context.hasher
  maxCommitments := maxCommitmentsAt context.now chainStart

/-- `TryLowWorkHeadersSync`: none if the headers claim enough work, else the session the peer is
left with. -/
def tryLowWorkHeadersSync (opts : NodeOptions) (context : MessageContext)
    (chainman : ChainstateManager) (session : Option SyncSession) (chainStart : CBlockIndex)
    (headers : List CBlockHeader) : Option (Option SyncSession) :=
  let totalWork := chainStart.nChainWork + calculateClaimedHeadersWork headers
  let minimumChainWork := chainman.getAntiDoSWorkThreshold opts
  if totalWork < minimumChainWork then
    if headers.length = opts.maxHeadersResult then
      let cfg := newSyncConfig opts context chainStart minimumChainWork
      some (isContinuationOfLowWorkHeadersSync opts (some ⟨cfg, HeadersSyncState.init cfg⟩)
        headers none).session
    else some session
  else none

namespace Node

/-- The height `ProcessHeadersMessage` checks the first header at: the one the peer's session
expects, or the one after an indexed predecessor. -/
def startHeight (node : Node) (peer : Nat) (prev : Uint256) : Option Int :=
  match (node.headersSync peer).bind fun session => session.state.getNextHeight prev with
  | some height => some height
  | none => (node.chainman.blockman.lookupBlockIndex prev).map fun pindex => pindex.nHeight + 1

variable (opts : NodeOptions) (node : Node)

/-- The end of `ProcessHeadersMessage`: headers that go to the block index. -/
def storeHeaders (headers : List CBlockHeader) (startHeight : Option Int) (now : Int) : Node :=
  { node with
    chainman := match startHeight with
      | some height =>
        (node.chainman.processNewBlockHeadersPrechecked opts.params headers height now).1
      | none => (node.chainman.processNewBlockHeaders opts.params headers true now).1 }

/-- The middle of `ProcessHeadersMessage`: headers that the session of the peer, if any, has let
through. -/
def processConnectingHeaders (peer : Nat) (context : MessageContext) (outcome : SyncOutcome) :
    Node :=
  match outcome.headers, outcome.headers.getLast? with
  | first :: _, some last =>
    match node.chainman.blockman.lookupBlockIndex first.hashPrevBlock with
    | none => node
    | some chainStart =>
      let lastReceived := node.chainman.blockman.lookupBlockIndex last.getHash
      if outcome.success || node.chainman.isAncestorOfBestHeaderOrTip lastReceived ||
          context.noBan then
        node.storeHeaders opts outcome.headers outcome.checkedHeight context.now
      else match tryLowWorkHeadersSync opts context node.chainman outcome.session chainStart
          outcome.headers with
        | some session => node.setSession peer session
        | none => node.storeHeaders opts outcome.headers outcome.checkedHeight context.now
  | _, _ => node

def processHeadersMessage (peer : Nat) (context : MessageContext) (headers : List CBlockHeader) :
    Node :=
  match headers with
  | [] => node.setSession peer none
  | first :: _ =>
    let startHeight := node.startHeight peer first.hashPrevBlock
    if checkHeadersPoW opts.params headers startHeight then
      let outcome :=
        isContinuationOfLowWorkHeadersSync opts (node.headersSync peer) headers startHeight
      (node.setSession peer outcome.session).processConnectingHeaders opts peer context outcome
    else node

end Node

lemma Node.processHeadersMessage_chainman (opts : NodeOptions) (node : Node) (peer : Nat)
    (context : MessageContext) (headers : List CBlockHeader) :
    (node.processHeadersMessage opts peer context headers).chainman = node.chainman ∨
      ∃ batch startHeight, (node.processHeadersMessage opts peer context headers).chainman =
        (ChainstateManager.processNewBlockHeadersImpl opts.params true context.now node.chainman
          batch startHeight none).1 := by
  have hstore : ∀ (node : Node) batch startHeight, (node.storeHeaders opts batch startHeight
      context.now).chainman = (ChainstateManager.processNewBlockHeadersImpl opts.params true
        context.now node.chainman batch startHeight none).1 := by
    intro node batch startHeight
    cases startHeight with
    | none => rfl
    | some height => rfl
  cases headers with
  | nil => exact .inl rfl
  | cons first headers =>
    rw [Node.processHeadersMessage]
    split
    case isFalse => exact .inl rfl
    case isTrue =>
      rw [Node.processConnectingHeaders]
      split
      case h_2 => exact .inl rfl
      case h_1 =>
        split
        case h_1 => exact .inl rfl
        case h_2 =>
          dsimp only
          split
          case isTrue => exact .inr ⟨_, _, hstore _ _ _⟩
          case isFalse =>
            split
            case h_1 => exact .inl rfl
            case h_2 => exact .inr ⟨_, _, hstore _ _ _⟩

/-- What happens to a node: a `headers` message, a header that comes with a compact block or by
RPC, a block, a change of the active chain to the entry with a given hash, a pruning of block
files, and the end of a connection. -/
inductive NodeEvent where
  | headers (peer : Nat) (context : MessageContext) (headers : List CBlockHeader)
  | newHeaders (headers : List CBlockHeader) (minPowChecked : Bool) (now : Int)
  | newBlock (block : CBlock) (forceProcessing minPowChecked : Bool) (now : Int)
  | chainChange (tip bestHeader : Uint256) (failed : Uint256 → Bool)
  | prune (lastPrune : Int) (selected : Nat → Bool)
  | disconnect (peer : Nat)

namespace Node

/-- The change of the active chain to another tip, with the best header and the marks of failed
entries that go with it. -/
def changeChain (chainman : ChainstateManager) (tip bestHeader : Uint256)
    (failed : Uint256 → Bool) : ChainstateManager where
  blockman := chainman.blockman.markFailed failed
  bestHeader := chainman.blockman.lookupBlockIndex bestHeader
  activeTip := chainman.blockman.lookupBlockIndex tip

def step (opts : NodeOptions) (node : Node) : NodeEvent → Node
  | .headers peer context headers =>
    if headers.length > opts.maxHeadersResult then node
    else node.processHeadersMessage opts peer context headers
  | .newHeaders headers minPowChecked now =>
    { node with
      chainman := (node.chainman.processNewBlockHeaders opts.params headers minPowChecked now).1 }
  | .newBlock block forceProcessing minPowChecked now =>
    { node with
      chainman := (node.chainman.processNewBlock opts.params opts.minimumChainWork block
        forceProcessing minPowChecked now).1 }
  | .chainChange tip bestHeader failed =>
    { node with chainman := changeChain node.chainman tip bestHeader failed }
  | .prune lastPrune selected =>
    { node with
      chainman := { node.chainman with
        blockman := node.chainman.blockman.findFilesToPrune node.chainman.activeHeight lastPrune
          selected } }
  | .disconnect peer => node.setSession peer none

def run (opts : NodeOptions) (node : Node) (events : List NodeEvent) : Node :=
  events.foldl (fun node event => node.step opts event) node

end Node

end Tidecoin
