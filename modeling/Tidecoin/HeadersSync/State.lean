import Tidecoin.HeadersSync.Retarget

/-!
The two-phase header download of `headerssync.cpp`. A session first streams through the headers of
a peer, storing one bit for some of them, until they carry enough work (`presync`); it then
downloads them again, compares the bits, and releases headers once enough of them follow or the
work is reached (`redownload`). The members a session never changes are in `SyncConfig`; a rejected
header keeps what was written to the state before the rejection, as in the source.
-/

namespace Tidecoin

open Lib

def headerCommitmentPeriod : Nat := 632

lemma headerCommitmentPeriod_pos : 0 < headerCommitmentPeriod := Nat.zero_lt_succ _

def redownloadBufferSize : Nat := 15009

/-- A header without its predecessor hash and its proof. -/
structure CompressedHeader where
  nVersion : BitVec 32
  hashMerkleRoot : Uint256
  nTime : UInt32
  nBits : UInt32
  nNonce : UInt32
deriving DecidableEq, Repr

def CBlockHeader.compress (header : CBlockHeader) : CompressedHeader :=
  ⟨header.nVersion, header.hashMerkleRoot, header.nTime, header.nBits, header.nNonce⟩

def CompressedHeader.getFullHeader (compressed : CompressedHeader) (hashPrevBlock : Uint256) :
    CBlockHeader where
  nVersion := compressed.nVersion
  hashPrevBlock := hashPrevBlock
  hashMerkleRoot := compressed.hashMerkleRoot
  nTime := compressed.nTime
  nBits := compressed.nBits
  nNonce := compressed.nNonce
  auxpow := none

lemma CBlockHeader.compress_getFullHeader (header : CBlockHeader) :
    header.compress.getFullHeader header.hashPrevBlock = header.withoutAuxpow := rfl

/-- `HeadersSyncState::State`. -/
inductive SyncPhase where
  | presync
  | redownload
  | final
deriving DecidableEq, Repr

/-- Why a session gave up on a header, as its log line names it. `wrongPhase` stands for the
assumptions about the phase that the callers keep. -/
inductive SyncAbort where
  | nonContinuous
  | invalidDifficultyTransition
  | exceededMaxCommitments
  | commitmentOverrun
  | commitmentMismatch
  | wrongPhase
deriving DecidableEq, Repr

/-- The members of a `HeadersSyncState` that are fixed by its constructor. -/
structure SyncConfig where
  params : Params
  chainStart : CBlockIndex
  minimumRequiredWork : ArithUint256
  commitOffset : Fin headerCommitmentPeriod
  hasher : Uint256 → UInt64
  maxCommitments : Nat

/-- `m_max_commitments` for a session started at the given time: six blocks a second since the
median time of the chain start, converted to `uint64_t` for the division. -/
def maxCommitmentsAt (now : Int) (chainStart : CBlockIndex) : Nat :=
  (6 * (now - chainStart.getMedianTimePast + maxFutureBlockTime) % 2 ^ 64).toNat /
    headerCommitmentPeriod

/-- The members of a `HeadersSyncState` that change. -/
structure HeadersSyncState where
  downloadState : SyncPhase
  currentChainWork : ArithUint256
  headerCommitments : List Bool
  lastHeaderReceived : CBlockHeader
  currentHeight : Int
  redownloadedHeaders : List CompressedHeader
  redownloadBufferLastHeight : Int
  redownloadBufferLastHash : Uint256
  redownloadBufferFirstPrevHash : Uint256
  redownloadChainWork : ArithUint256
  processAllRemainingHeaders : Bool
  retargetBuffers : RetargetBuffers
deriving DecidableEq, Repr

/-- The result of a batch, with the reason of a failure that the source only logs. -/
structure ProcessingResult where
  powValidatedHeaders : List CBlockHeader
  checkedStartHeight : Option Int
  success : Bool
  requestMore : Bool
  abort : Option SyncAbort
deriving DecidableEq, Repr

def ProcessingResult.default : ProcessingResult := ⟨[], none, false, false, none⟩

namespace HeadersSyncState

/-- The state the constructor leaves. -/
def init (cfg : SyncConfig) : HeadersSyncState where
  downloadState := .presync
  currentChainWork := cfg.chainStart.nChainWork
  headerCommitments := []
  lastHeaderReceived := cfg.chainStart.getBlockHeader
  currentHeight := cfg.chainStart.nHeight
  redownloadedHeaders := []
  redownloadBufferLastHeight := 0
  redownloadBufferLastHash := 0
  redownloadBufferFirstPrevHash := 0
  redownloadChainWork := 0
  processAllRemainingHeaders := false
  retargetBuffers := RetargetBuffers.resetToChainStart cfg.params cfg.chainStart

def finalize (state : HeadersSyncState) : HeadersSyncState :=
  { state with
    headerCommitments := []
    lastHeaderReceived := ⟨CPureBlockHeader.null, none⟩
    redownloadedHeaders := []
    redownloadBufferLastHash := 0
    redownloadBufferFirstPrevHash := 0
    processAllRemainingHeaders := false
    currentHeight := 0
    downloadState := .final }

/-- `SeedRetargetBuffersFromLastHeader`, made when the buffers are empty. -/
def seedRetargetBuffers (cfg : SyncConfig) (state : HeadersSyncState) : HeadersSyncState :=
  if state.retargetBuffers.recentNbits.isEmpty then
    { state with
      retargetBuffers :=
        RetargetBuffers.empty.pushHeader cfg.params state.lastHeaderReceived.sample }
  else state

variable [Crypto]

/-- The bit stored for a header: the low bit of the salted hash. -/
def commitment (cfg : SyncConfig) (header : CBlockHeader) : Bool :=
  cfg.hasher header.getHash &&& 1 = 1

omit [Crypto] in
/-- A commitment is kept for the headers at this height. -/
def commits (cfg : SyncConfig) (height : Int) : Bool :=
  height % headerCommitmentPeriod = (cfg.commitOffset : Nat)

def validateAndProcessSingleHeader (cfg : SyncConfig) (state : HeadersSyncState)
    (current : CBlockHeader) : HeadersSyncState × Option SyncAbort :=
  if state.downloadState ≠ .presync then (state, some .wrongPhase)
  else
    let nextHeight := state.currentHeight + 1
    let state := state.seedRetargetBuffers cfg
    if !checkWindowAwareRetarget cfg.params state.retargetBuffers state.lastHeaderReceived.nBits
        current.nBits current.getBlockTime state.lastHeaderReceived.getBlockTime nextHeight then
      (state, some .invalidDifficultyTransition)
    else
      let state := if commits cfg nextHeight then
          { state with headerCommitments := state.headerCommitments ++ [commitment cfg current] }
        else state
      if commits cfg nextHeight && state.headerCommitments.length > cfg.maxCommitments then
        (state, some .exceededMaxCommitments)
      else
        ({ state with
            currentChainWork := state.currentChainWork + getBlockProof current.nBits
            lastHeaderReceived := current.withoutAuxpow
            currentHeight := nextHeight
            retargetBuffers := state.retargetBuffers.pushHeader cfg.params current.sample },
          none)

/-- The loop over the headers of a batch: it stops at the first rejected one. -/
def forEachHeader (step : HeadersSyncState → CBlockHeader → HeadersSyncState × Option SyncAbort) :
    HeadersSyncState → List CBlockHeader → HeadersSyncState × Option SyncAbort
  | state, [] => (state, none)
  | state, header :: headers =>
    match step state header with
    | (state, none) => forEachHeader step state headers
    | (state, some abort) => (state, some abort)

section

variable (cfg : SyncConfig) (state : HeadersSyncState)

/-- The switch to the second phase, made when the work is sufficient. -/
def startRedownload : HeadersSyncState :=
  if state.currentChainWork ≥ cfg.minimumRequiredWork then
    { state with
      redownloadedHeaders := []
      redownloadBufferLastHeight := cfg.chainStart.nHeight
      redownloadBufferFirstPrevHash := cfg.chainStart.phashBlock
      redownloadBufferLastHash := cfg.chainStart.phashBlock
      redownloadChainWork := cfg.chainStart.nChainWork
      retargetBuffers := RetargetBuffers.resetToChainStart cfg.params cfg.chainStart
      downloadState := .redownload }
  else state

def validateAndStoreHeadersCommitments :
    List CBlockHeader → HeadersSyncState × Option SyncAbort
  | [] => (state, none)
  | header :: headers =>
    if state.downloadState ≠ .presync then (state, some .wrongPhase)
    else if header.hashPrevBlock ≠ state.lastHeaderReceived.getHash then
      (state, some .nonContinuous)
    else match forEachHeader (validateAndProcessSingleHeader cfg) state (header :: headers) with
      | (state, some abort) => (state, some abort)
      | (state, none) => (state.startRedownload cfg, none)

omit [Crypto] in
/-- The target and time of the last stored header, or of the chain start. -/
def redownloadPrevious : RetargetSample :=
  match state.redownloadedHeaders.getLast? with
  | none => cfg.chainStart.sample
  | some header => ⟨header.nBits, header.nTime⟩

omit [Crypto] in
/-- The work of the redownloaded chain with one more header, and whether it is sufficient. -/
def trackRedownloadWork (header : CBlockHeader) : HeadersSyncState :=
  let work := state.redownloadChainWork + getBlockProof header.nBits
  { state with
    redownloadChainWork := work
    processAllRemainingHeaders :=
      state.processAllRemainingHeaders || work ≥ cfg.minimumRequiredWork }

/-- The comparison of a redownloaded header with the next stored bit. -/
def checkCommitment (header : CBlockHeader) : HeadersSyncState × Option SyncAbort :=
  match state.headerCommitments with
  | [] => (state, some .commitmentOverrun)
  | expected :: rest =>
    if commitment cfg header ≠ expected then
      ({ state with headerCommitments := rest }, some .commitmentMismatch)
    else ({ state with headerCommitments := rest }, none)

/-- The end of `ValidateAndStoreRedownloadedHeader`: the header is accepted. -/
def storeRedownloaded (header : CBlockHeader) : HeadersSyncState :=
  { state with
    redownloadedHeaders := state.redownloadedHeaders ++ [header.compress]
    redownloadBufferLastHeight := state.redownloadBufferLastHeight + 1
    redownloadBufferLastHash := header.getHash
    retargetBuffers := state.retargetBuffers.pushHeader cfg.params header.sample }

def validateAndStoreRedownloadedHeader (header : CBlockHeader) :
    HeadersSyncState × Option SyncAbort :=
  if state.downloadState ≠ .redownload then (state, some .wrongPhase)
  else
    let nextHeight := state.redownloadBufferLastHeight + 1
    let previous := state.redownloadPrevious cfg
    if header.hashPrevBlock ≠ state.redownloadBufferLastHash then (state, some .nonContinuous)
    else if !checkWindowAwareRetarget cfg.params state.retargetBuffers previous.nBits header.nBits
        header.getBlockTime previous.time nextHeight then
      (state, some .invalidDifficultyTransition)
    else
      let state := state.trackRedownloadWork cfg header
      if !state.processAllRemainingHeaders && commits cfg nextHeight then
        match state.checkCommitment cfg header with
        | (state, some abort) => (state, some abort)
        | (state, none) => (state.storeRedownloaded cfg header, none)
      else (state.storeRedownloaded cfg header, none)

end

/-- The loop of `PopHeadersReadyForAcceptance` over the buffer: the released headers, what stays
buffered, and the hash the next header follows. -/
def popLoop (processAll : Bool) :
    List CompressedHeader → Uint256 → List CBlockHeader × List CompressedHeader × Uint256
  | [], prevHash => ([], [], prevHash)
  | compressed :: buffer, prevHash =>
    if (compressed :: buffer).length > redownloadBufferSize ∨ processAll then
      let full := compressed.getFullHeader prevHash
      let (released, left, lastHash) := popLoop processAll buffer full.getHash
      (full :: released, left, lastHash)
    else ([], compressed :: buffer, prevHash)

def popHeadersReadyForAcceptance (state : HeadersSyncState) :
    List CBlockHeader × HeadersSyncState :=
  let (released, left, lastHash) := popLoop state.processAllRemainingHeaders
    state.redownloadedHeaders state.redownloadBufferFirstPrevHash
  (released, { state with
    redownloadedHeaders := left
    redownloadBufferFirstPrevHash := lastHash })

section

variable (cfg : SyncConfig) (state : HeadersSyncState) (receivedHeaders : List CBlockHeader)
    (fullHeadersMessage : Bool)

/-- The redownload branch of `ProcessNextHeaders`, up to the final check whether to go on. -/
def processRedownload : ProcessingResult × HeadersSyncState :=
  match forEachHeader (validateAndStoreRedownloadedHeader cfg) state receivedHeaders with
  | (state, some abort) => ({ ProcessingResult.default with abort := some abort }, state)
  | (state, none) =>
    let firstHeight := state.redownloadBufferLastHeight - state.redownloadedHeaders.length + 1
    let (released, state) := state.popHeadersReadyForAcceptance
    let complete := state.redownloadedHeaders.isEmpty && state.processAllRemainingHeaders
    ({ powValidatedHeaders := released
       checkedStartHeight := if released.isEmpty then none else some firstHeight
       success := true
       requestMore := !complete && fullHeadersMessage
       abort := none }, state)

/-- The presync branch of `ProcessNextHeaders`. -/
def processPresync : ProcessingResult × HeadersSyncState :=
  match state.validateAndStoreHeadersCommitments cfg receivedHeaders with
  | (state, some abort) => ({ ProcessingResult.default with abort := some abort }, state)
  | (state, none) =>
    ({ ProcessingResult.default with
        success := true
        requestMore := fullHeadersMessage || state.downloadState = .redownload }, state)

end

omit [Crypto] in
/-- The last line of `ProcessNextHeaders`: a session that does not go on is finalized. -/
def finishBatch : ProcessingResult × HeadersSyncState → ProcessingResult × HeadersSyncState
  | (result, state) =>
    if result.success && result.requestMore then (result, state) else (result, state.finalize)

def processNextHeaders (cfg : SyncConfig) (state : HeadersSyncState)
    (receivedHeaders : List CBlockHeader) (fullHeadersMessage : Bool) :
    ProcessingResult × HeadersSyncState :=
  if receivedHeaders.isEmpty then (ProcessingResult.default, state)
  else match state.downloadState with
    | .final => (ProcessingResult.default, state)
    | .presync => finishBatch (state.processPresync cfg receivedHeaders fullHeadersMessage)
    | .redownload => finishBatch (state.processRedownload cfg receivedHeaders fullHeadersMessage)

def getNextHeight (state : HeadersSyncState) (prev : Uint256) : Option Int :=
  if state.downloadState = .presync ∧ prev = state.lastHeaderReceived.getHash then
    some (state.currentHeight + 1)
  else if state.downloadState = .redownload ∧ prev = state.redownloadBufferLastHash then
    some (state.redownloadBufferLastHeight + 1)
  else none

end HeadersSyncState

end Tidecoin
