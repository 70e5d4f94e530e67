import Tidecoin.HeadersSync.Run
import Tidecoin.Net.Headers

/-!
Every header in the block index has had its work checked at the height it is indexed at. The
low-work sync drops the merged-mining proofs of buffered headers, and the index then skips the check
if the height it was made at is the right one; the invariant below ties the heights a session counts
to the headers the node received.
-/

namespace Tidecoin

open Lib List ChainstateManager Option BlockManager

variable [Crypto]

/-- The headers that come with an event. -/
def NodeEvent.received : NodeEvent → List CBlockHeader
  | .headers _ _ batch => batch
  | .newHeaders batch _ _ => batch
  | .newBlock block _ _ _ => [block.toCBlockHeader]
  | _ => []

variable {params : Params} {received : List CBlockHeader} {known : List CBlockIndex}
  {headers : List CBlockHeader}

lemma hasValidProofOfWork_append (headers headers' : List CBlockHeader) (startHeight : Option Int) :
    hasValidProofOfWork params (headers ++ headers') startHeight =
      (hasValidProofOfWork params headers startHeight &&
        hasValidProofOfWork params headers' (startHeight.map (· + headers.length))) := by
  induction headers generalizing startHeight with
  | nil => cases startHeight <;> simp [hasValidProofOfWork]
  | cons header headers ih =>
    have hheight : (startHeight.map (· + 1)).map (· + (headers.length : Int)) =
        startHeight.map (· + ((header :: headers).length : Int)) := by
      cases startHeight with
      | none => rfl
      | some height => exact congrArg some (by push_cast [length_cons]; ring)
    rw [cons_append, hasValidProofOfWork, hasValidProofOfWork, ih, hheight, Bool.and_assoc]

lemma auxpow_isSome_of_checkHeaderProofOfWork {header : CBlockHeader} {height : Option Int}
    (hchecked : checkHeaderProofOfWork header params height) :
    header.auxpow.isSome = header.isAuxpow := by
  rw [← checkBlockHeader_eq_ok_iff] at hchecked
  obtain ⟨_, hcontext, -⟩ := bind_eq_ok.1 hchecked
  obtain ⟨_, hflagged, hrest⟩ := bind_eq_ok.1 hcontext
  obtain ⟨_, hproof, -⟩ := bind_eq_ok.1 hrest
  exact Bool.eq_iff_iff.2 ⟨require_eq_ok.1 hproof, require_eq_ok.1 hflagged⟩

lemma checkHeaderProofOfWork_of_withoutAuxpow {header : CBlockHeader}
    {height height' : Option Int} (hchecked : checkHeaderProofOfWork header params height)
    (hstripped : checkHeaderProofOfWork header.withoutAuxpow params height') :
    checkHeaderProofOfWork header params height' := by
  have hproof := auxpow_isSome_of_checkHeaderProofOfWork hchecked
  have hflag : header.isAuxpow = false := (auxpow_isSome_of_checkHeaderProofOfWork hstripped).symm
  rw [hflag, isSome_eq_false_iff, isNone_iff_eq_none] at hproof
  have hsame : header.withoutAuxpow = header := by
    rw [CBlockHeader.withoutAuxpow, ← hproof]
  rwa [hsame] at hstripped

/-- The 80 bytes of the header were received with work that was checked at the given height. -/
def ReceivedWithWork (params : Params) (received : List CBlockHeader) (header : CPureBlockHeader)
    (height : Int) : Prop :=
  ∃ origin ∈ received, origin.toCPureBlockHeader = header ∧
    checkHeaderProofOfWork origin params (some height) = true

/-- A header on its way to the index, checked at `height` before if that is known, stems from a
received one: whatever work it has, the received one has. -/
def Vouched (params : Params) (received : List CBlockHeader) (height : Option Int)
    (header : CBlockHeader) : Prop :=
  ∃ origin ∈ received, origin.toCPureBlockHeader = header.toCPureBlockHeader ∧
    (∀ other, checkHeaderProofOfWork header params (some other) = true →
      checkHeaderProofOfWork origin params (some other) = true) ∧
    ∀ checked ∈ height, checkHeaderProofOfWork origin params (some checked) = true

/-- `Vouched` for a list of headers at consecutive heights. -/
def VouchedFrom (params : Params) (received : List CBlockHeader) :
    Option Int → List CBlockHeader → Prop
  | _, [] => True
  | height, header :: headers =>
    Vouched params received height header ∧ VouchedFrom params received (height.map (· + 1)) headers

section

variable {startHeight : Option Int} (hvalid : hasValidProofOfWork params headers startHeight)
    (hreceived : headers ⊆ received)
include hvalid hreceived

lemma vouchedFrom_of_valid : VouchedFrom params received startHeight headers := by
  induction headers generalizing startHeight with
  | nil => trivial
  | cons header headers ih =>
    rw [hasValidProofOfWork, Bool.and_eq_true] at hvalid
    rw [cons_subset] at hreceived
    refine ⟨⟨header, hreceived.1, rfl, fun _ hchecked => hchecked, ?_⟩, ih hvalid.2 hreceived.2⟩
    rintro checked ⟨⟩
    exact hvalid.1

lemma vouchedFrom_withoutAuxpow :
    VouchedFrom params received startHeight (headers.map CBlockHeader.withoutAuxpow) := by
  induction headers generalizing startHeight with
  | nil => trivial
  | cons header headers ih =>
    rw [hasValidProofOfWork, Bool.and_eq_true] at hvalid
    rw [cons_subset] at hreceived
    refine ⟨⟨header, hreceived.1, rfl, ?_, ?_⟩, ih hvalid.2 hreceived.2⟩
    · exact fun _ hstripped => checkHeaderProofOfWork_of_withoutAuxpow hvalid.1 hstripped
    · rintro checked ⟨⟩
      exact hvalid.1

end

lemma vouchedFrom_none (hreceived : headers ⊆ received) :
    VouchedFrom params received none headers := by
  induction headers with
  | nil => trivial
  | cons header headers ih =>
    rw [cons_subset] at hreceived
    exact ⟨⟨header, hreceived.1, rfl, fun _ hchecked => hchecked, fun _ hnone => nomatch hnone⟩,
      ih hreceived.2⟩

/-- Every entry of the index was known from the start, is the genesis block, or was received with
work checked at its height. -/
def IndexChecked (params : Params) (received : List CBlockHeader) (known : List CBlockIndex)
    (chainman : ChainstateManager) : Prop :=
  ∀ pindex ∈ chainman.blockman.blockIndex, pindex ∈ known ∨
    pindex.phashBlock = params.hashGenesisBlock ∨
    ReceivedWithWork params received pindex.getBlockHeader.toCPureBlockHeader pindex.nHeight

lemma ReceivedWithWork.mono {received' : List CBlockHeader} (hsubset : received ⊆ received')
    {header : CPureBlockHeader} {height : Int}
    (hwork : ReceivedWithWork params received header height) :
    ReceivedWithWork params received' header height := by
  obtain ⟨origin, horigin, hrest⟩ := hwork
  exact ⟨origin, hsubset horigin, hrest⟩

variable {chainman : ChainstateManager}

lemma IndexChecked.mono {received' : List CBlockHeader} (hsubset : received ⊆ received')
    (hindex : IndexChecked params received known chainman) :
    IndexChecked params received' known chainman :=
  fun pindex hpindex => (hindex pindex hpindex).imp_right (.imp_right (.mono hsubset))

section

variable (hindex : IndexChecked params received known chainman)
include hindex

lemma IndexChecked.acceptHeader {block : CBlockHeader} {proofCheckedHeight : Option Int}
    {accepted : AcceptedHeader}
    (hvouched : Vouched params received proofCheckedHeight block)
    (haccepted : HeaderAccepted params chainman block proofCheckedHeight accepted) :
    IndexChecked params received known accepted.chainman := by
  cases haccepted with
  | known hsame hlookup => rwa [hsame]
  | added hunknown hentry hblockman htip hchecked =>
    intro pindex hpindex
    rw [hblockman, insertEntry_blockIndex] at hpindex
    rcases mem_cons.1 hpindex with hnew | hold
    · subst hnew
      rw [hentry]
      right
      rcases hchecked with hgenesis | ⟨pindexPrev, hprev, hwork⟩
      · exact .inl ((newEntry_phashBlock _ _).trans hgenesis)
      · obtain ⟨hheight, hheader⟩ := newEntry_of_lookup hprev
        obtain ⟨origin, horigin, hsame, hagain, hbefore⟩ := hvouched
        refine .inr ⟨origin, horigin, hsame.trans hheader.symm, ?_⟩
        rw [hheight]
        rcases hwork with hskipped | hpassed
        · exact hbefore _ hskipped
        · exact hagain _ hpassed
    · exact hindex pindex hold

lemma IndexChecked.processNewBlockHeadersImpl {minPowChecked : Bool} {now : Int}
    {headers : List CBlockHeader} {startHeight : Option Int} {pindexLast : Option CBlockIndex}
    (hvouched : VouchedFrom params received startHeight headers) :
    IndexChecked params received known (processNewBlockHeadersImpl params
      minPowChecked now chainman headers startHeight pindexLast).1 := by
  induction headers generalizing chainman startHeight pindexLast with
  | nil => exact hindex
  | cons header headers ih =>
    rw [processNewBlockHeadersImpl]
    split
    case h_1 => exact hindex
    case h_2 accepted haccept =>
      exact ih (hindex.acceptHeader hvouched.1 (acceptBlockHeader_eq_ok haccept)) hvouched.2

lemma IndexChecked.processNewBlock {minimumChainWork : ArithUint256} {block : CBlock}
    {forceProcessing minPowChecked : Bool} {now : Int}
    (hreceived : block.toCBlockHeader ∈ received) :
    IndexChecked params received known (chainman.processNewBlock params minimumChainWork block
      forceProcessing minPowChecked now).1 := by
  have hvouched : Vouched params received none block.toCBlockHeader :=
    (vouchedFrom_none (cons_subset.2 ⟨hreceived, nil_subset _⟩)).1
  refine processNewBlock_cases (P := IndexChecked params received known) params hindex ?_
  intro accepted haccepted
  have hstored := hindex.acceptHeader hvouched haccepted
  refine ⟨hstored, fun invalid pindex hpindex => ?_, fun pindex hpindex => ?_⟩
  · obtain ⟨-, failed, hmarks⟩ := accepted.chainman.invalidBlockFound_spec accepted.pindex invalid
    rw [hmarks] at hpindex
    exact hstored pindex hpindex
  · rw [storeBlock_blockIndex] at hpindex
    exact hstored pindex hpindex

end

section

open HeadersSyncState

/-- The headers a session has accepted in its second phase were received with work checked at the
heights the session gives them. -/
def SessionChecked (params : Params) (received : List CBlockHeader) (session : SyncSession) :
    Prop :=
  ∃ presync accepted released,
    SessionAt session.cfg presync accepted released session.state ∧
      hasValidProofOfWork params accepted (some (session.cfg.chainStart.nHeight + 1)) = true ∧
      accepted ⊆ received

lemma SessionChecked.mono {received' : List CBlockHeader} (hsubset : received ⊆ received')
    {session : SyncSession} (hchecked : SessionChecked params received session) :
    SessionChecked params received' session := by
  obtain ⟨presync, accepted, released, hsession, hvalid, haccepted⟩ := hchecked
  exact ⟨presync, accepted, released, hsession, hvalid, Subset.trans haccepted hsubset⟩

lemma getNextHeight_of_linked {cfg : SyncConfig} {presync accepted : List CBlockHeader}
    {released : Nat}
    {state : HeadersSyncState} (hsession : SessionAt cfg presync accepted released state)
    (hphase : state.downloadState = .redownload) {first : CBlockHeader}
    (hlinked : Linked cfg.chainStart.phashBlock (accepted ++ first :: headers)) :
    state.getNextHeight first.hashPrevBlock =
      some (cfg.chainStart.nHeight + 1 + accepted.length) := by
  cases hsession with
  | presync => cases hphase
  | final _ hfinal =>
    rw [hfinal] at hphase
    cases hphase
  | redownload =>
    have hprev : first.hashPrevBlock = (cfg.tip accepted).phashBlock := by
      rw [cfg.tip_phashBlock]
      exact (linked_append.1 hlinked).2.1
    have hnext : (cfg.tip accepted).nHeight + 1 = cfg.chainStart.nHeight + 1 + accepted.length := by
      rw [cfg.tip_nHeight]
      ring
    rw [getNextHeight, if_neg fun hpresync => nomatch hpresync.1]
    exact (if_pos ⟨rfl, hprev⟩).trans (congrArg some hnext)

lemma hasValidProofOfWork_drop_take {height : Int} {skip : Nat}
    (hvalid : hasValidProofOfWork params headers (some height)) (hskip : skip ≤ headers.length)
    (count : Nat) :
    hasValidProofOfWork params ((headers.drop skip).take count) (some (height + skip)) := by
  rw [← headers.take_append_drop skip, ← (headers.drop skip).take_append_drop count,
    hasValidProofOfWork_append, hasValidProofOfWork_append, Bool.and_eq_true,
    Bool.and_eq_true, length_take_of_le hskip] at hvalid
  exact hvalid.2.1

/-- A session in its second phase only accepts headers that were checked at the expected height. -/
theorem accepted_checked {cfg : SyncConfig} {presync accepted : List CBlockHeader}
    {released count : Nat} {state : HeadersSyncState} {batch : SyncBatch}
    (hsession : SessionAt cfg presync accepted released state)
    (hspec : CallSpec cfg presync accepted released (call cfg state batch) count)
    (hvalid : hasValidProofOfWork params accepted (some (cfg.chainStart.nHeight + 1)))
    (hheights : state.downloadState = .redownload → ∀ first ∈ batch.headers.head?,
      ∀ height ∈ state.getNextHeight first.hashPrevBlock,
        hasValidProofOfWork params batch.headers (some height)) :
    hasValidProofOfWork params (accepted ++ (call cfg state batch).accepted .redownload)
      (some (cfg.chainStart.nHeight + 1)) := by
  have hlinked := hspec.session.history.linked
  rw [hasValidProofOfWork_append, hvalid, Bool.true_and]
  rw [SyncStep.accepted] at hlinked ⊢
  split
  case isFalse => rfl
  case isTrue haccepts =>
    rw [if_pos haccepts] at hlinked
    change Linked cfg.chainStart.phashBlock (accepted ++ batch.headers) at hlinked
    change hasValidProofOfWork params batch.headers _ = true
    cases hbatch : batch.headers with
    | nil => rfl
    | cons first headers =>
      rw [hbatch] at hlinked
      have hnext := getNextHeight_of_linked hsession haccepts.1 hlinked
      rw [← hbatch]
      exact hheights haccepts.1 first (by rw [hbatch]; rfl) _ hnext

/-- The call a continuation makes on the session of the peer. -/
def continuationStep (opts : NodeOptions) (session : SyncSession) (headers : List CBlockHeader) :
    SyncStep :=
  call session.cfg session.state ⟨headers, headers.length = opts.maxHeadersResult⟩

lemma isContinuation_some (opts : NodeOptions) (session : SyncSession)
    (headers : List CBlockHeader) (checkedHeight : Option Int) :
    isContinuationOfLowWorkHeadersSync opts (some session) headers checkedHeight =
      let step := continuationStep opts session headers
      let left := if step.after.downloadState = .final then none else some ⟨session.cfg, step.after⟩
      if step.result.success then
        ⟨left, step.result.powValidatedHeaders, step.result.checkedStartHeight, true⟩
      else ⟨left, headers, checkedHeight, false⟩ := rfl

lemma isContinuation_checked {opts : NodeOptions} {session : Option SyncSession}
    {checkedHeight : Option Int}
    (hchecked : ∀ current ∈ session, SessionChecked params received current)
    (hreceived : headers ⊆ received)
    (hheights : ∀ current ∈ session, current.state.downloadState = .redownload →
      ∀ first ∈ headers.head?,
      ∀ height ∈ current.state.getNextHeight first.hashPrevBlock, hasValidProofOfWork params headers
        (some height))
    (hvouched : VouchedFrom params received checkedHeight headers) :
    let outcome := isContinuationOfLowWorkHeadersSync opts session headers checkedHeight
    (∀ left ∈ outcome.session, SessionChecked params received left) ∧
      VouchedFrom params received outcome.checkedHeight outcome.headers := by
  cases session with
  | none => exact ⟨fun left hleft => (nomatch hleft), hvouched⟩
  | some current =>
    obtain ⟨presync, accepted, released, hsession, hvalid, haccepted⟩ := hchecked current rfl
    obtain ⟨count, hspec⟩ := hsession.callSpec ⟨headers, headers.length = opts.maxHeadersResult⟩
    have hall := accepted_checked hsession hspec hvalid (hheights current rfl)
    have hsubset : (continuationStep opts current headers).accepted .redownload ⊆ received := by
      rw [SyncStep.accepted]
      split
      · exact hreceived
      · exact nil_subset _
    rw [isContinuation_some]
    change CallSpec current.cfg presync accepted released
      (continuationStep opts current headers) count at hspec
    change hasValidProofOfWork params
      (accepted ++ (continuationStep opts current headers).accepted .redownload) _ = true at hall
    generalize continuationStep opts current headers = step at hspec hall hsubset
    have hleft : ∀ left ∈ (if step.after.downloadState = .final then none
        else some (⟨current.cfg, step.after⟩ : SyncSession)),
        SessionChecked params received left := by
      intro left hleft
      split at hleft
      · cases hleft
      · cases hleft
        exact ⟨_, _, _, hspec.session, hall, append_subset.2 ⟨haccepted, hsubset⟩⟩
    have houtput : VouchedFrom params received step.result.checkedStartHeight
        step.result.powValidatedHeaders := by
      by_cases hempty : step.result.powValidatedHeaders = []
      · rw [hempty]
        trivial
      · rw [hspec.height hempty, hspec.output]
        apply vouchedFrom_withoutAuxpow
          (hasValidProofOfWork_drop_take hall (Nat.le_of_add_right_le hspec.fits) count)
        exact Subset.trans (take_subset _ _) (Subset.trans (drop_subset _ _)
          (append_subset.2 ⟨haccepted, hsubset⟩))
    dsimp only
    split
    · exact ⟨hleft, houtput⟩
    · exact ⟨hleft, hvouched⟩

end

namespace Node

/-- The invariant of a node that has received these headers. -/
structure Checked (opts : NodeOptions) (known : List CBlockIndex) (received : List CBlockHeader)
    (node : Node) : Prop where
  index : IndexChecked opts.params received known node.chainman
  sessions : ∀ peer, ∀ session ∈ node.headersSync peer, SessionChecked opts.params received session

variable {opts : NodeOptions} {node : Node}

lemma Checked.mono {received' : List CBlockHeader} (hsubset : received ⊆ received')
    (hnode : Checked opts known received node) : Checked opts known received' node :=
  ⟨hnode.index.mono hsubset, fun peer session hsession =>
    (hnode.sessions peer session hsession).mono hsubset⟩

variable {session : Option SyncSession}

variable (hnode : Checked opts known received node)

include hnode in
lemma Checked.setSession (peer : Nat)
    (hsession : ∀ current ∈ session, SessionChecked opts.params received current) :
    Checked opts known received (node.setSession peer session) := by
  refine ⟨hnode.index, fun other current hcurrent => ?_⟩
  rw [setSession_headersSync] at hcurrent
  split at hcurrent
  · exact hsession current hcurrent
  · exact hnode.sessions other current hcurrent

include hnode in
lemma Checked.storeHeaders {height : Option Int}
    (hvouched : VouchedFrom opts.params received height headers) (now : Int) :
    Checked opts known received (node.storeHeaders opts headers height now) := by
  refine ⟨?_, hnode.sessions⟩
  cases height with
  | some height => exact hnode.index.processNewBlockHeadersImpl hvouched
  | none => exact hnode.index.processNewBlockHeadersImpl hvouched

lemma sessionChecked_init (cfg : SyncConfig) :
    SessionChecked opts.params received ⟨cfg, HeadersSyncState.init cfg⟩ :=
  ⟨[], [], 0, HeadersSyncState.sessionAt_init cfg, rfl, nil_subset _⟩

lemma tryLowWorkHeadersSync_checked {context : MessageContext} {chainman : ChainstateManager}
    {left : Option SyncSession} {chainStart : CBlockIndex}
    (hsession : ∀ current ∈ session, SessionChecked opts.params received current)
    (hreceived : headers ⊆ received)
    (htry : tryLowWorkHeadersSync opts context chainman session chainStart headers = some left) :
    ∀ current ∈ left, SessionChecked opts.params received current := by
  rw [tryLowWorkHeadersSync] at htry
  split at htry
  case isFalse => cases htry
  case isTrue =>
    split at htry
    case isFalse =>
      cases htry
      exact hsession
    case isTrue =>
      cases htry
      refine (isContinuation_checked ?_ hreceived ?_ (vouchedFrom_none hreceived)).1
      · rintro current ⟨⟩
        exact sessionChecked_init _
      · rintro current ⟨⟩ hphase
        cases hphase

include hnode in
lemma Checked.processConnectingHeaders {peer : Nat} {context : MessageContext}
    {outcome : SyncOutcome}
    (hsession : ∀ current ∈ outcome.session, SessionChecked opts.params received current)
    (hvouched : VouchedFrom opts.params received outcome.checkedHeight outcome.headers)
    (hreceived : outcome.success = false → outcome.headers ⊆ received) :
    Checked opts known received (node.processConnectingHeaders opts peer context outcome) := by
  rw [Node.processConnectingHeaders]
  split
  case h_2 => exact hnode
  case h_1 =>
    split
    case h_1 => exact hnode
    case h_2 chainStart _ =>
      dsimp only
      split
      case isTrue => exact hnode.storeHeaders hvouched context.now
      case isFalse hdirect =>
        split
        case h_1 left htry =>
          simp only [Bool.or_eq_true, not_or, Bool.not_eq_true] at hdirect
          exact hnode.setSession peer (tryLowWorkHeadersSync_checked hsession
            (hreceived hdirect.1.1) htry)
        case h_2 => exact hnode.storeHeaders hvouched context.now

/-- The headers of a message are checked at the height the peer's session expects, if it expects
them. -/
theorem startHeight_of_getNextHeight {peer : Nat} {session : SyncSession}
    (hsession : session ∈ node.headersSync peer) {prev : Uint256} {height : Int}
    (hheight : height ∈ session.state.getNextHeight prev) :
    node.startHeight peer prev = some height := by
  rw [Node.startHeight, mem_def.1 hsession, bind_some, mem_def.1 hheight]

lemma isContinuation_headers_of_failed {height : Option Int}
    (hfailed : (isContinuationOfLowWorkHeadersSync opts session headers height).success = false) :
    (isContinuationOfLowWorkHeadersSync opts session headers height).headers = headers := by
  cases session with
  | none => rfl
  | some session =>
    rw [isContinuation_some] at hfailed ⊢
    dsimp only at hfailed ⊢
    split at hfailed
    · cases hfailed
    · rename_i hresult
      rw [if_neg hresult]

section

variable (hnode : Checked opts known received node)
include hnode

lemma Checked.processHeadersMessage (peer : Nat)
    (context : MessageContext) (hreceived : headers ⊆ received) :
    Checked opts known received (node.processHeadersMessage opts peer context headers) := by
  cases headers with
  | nil => exact hnode.setSession peer fun session hsession => nomatch hsession
  | cons first headers =>
    rw [Node.processHeadersMessage]
    split
    case isFalse => exact hnode
    case isTrue hchecked =>
      rw [checkHeadersPoW, Bool.and_eq_true] at hchecked
      have hvouched := vouchedFrom_of_valid hchecked.1 hreceived
      have hheights : ∀ current ∈ node.headersSync peer,
          current.state.downloadState = .redownload → ∀ header ∈ (first :: headers).head?,
          ∀ height ∈ current.state.getNextHeight header.hashPrevBlock,
            hasValidProofOfWork opts.params (first :: headers) (some height) := by
        rintro current hcurrent - header ⟨⟩ height hheight
        rw [← startHeight_of_getNextHeight hcurrent hheight]
        exact hchecked.1
      obtain ⟨hsession, houtput⟩ :=
        isContinuation_checked (hnode.sessions peer) hreceived hheights hvouched
      apply (hnode.setSession peer hsession).processConnectingHeaders hsession houtput
      intro hfailed
      rwa [isContinuation_headers_of_failed hfailed]

lemma Checked.step (event : NodeEvent) :
    Checked opts known (received ++ event.received) (node.step opts event) := by
  have hmore := hnode.mono (subset_append_left received event.received)
  have hevent : event.received ⊆ received ++ event.received := subset_append_right _ _
  cases event with
  | headers peer context headers =>
    rw [Node.step]
    split
    · exact hmore
    · exact hmore.processHeadersMessage peer context hevent
  | newHeaders headers minPowChecked now =>
    exact ⟨hmore.index.processNewBlockHeadersImpl (vouchedFrom_none hevent), hmore.sessions⟩
  | newBlock block forceProcessing minPowChecked now =>
    exact ⟨hmore.index.processNewBlock (hevent (mem_singleton_self _)), hmore.sessions⟩
  | chainChange tip bestHeader failed => exact ⟨hmore.index, hmore.sessions⟩
  | prune lastPrune selected =>
    refine ⟨fun pindex hpindex => hmore.index pindex ?_, hmore.sessions⟩
    rwa [Node.step, findFilesToPrune_blockIndex] at hpindex
  | disconnect peer => exact hmore.setSession peer fun session hsession => nomatch hsession

lemma Checked.run (events : List NodeEvent) :
    Checked opts known (received ++ events.flatMap NodeEvent.received) (node.run opts events) := by
  induction events generalizing node received with
  | nil =>
    rw [flatMap_nil, append_nil]
    exact hnode
  | cons event events ih =>
    rw [flatMap_cons, ← append_assoc]
    exact ih (hnode.step event)

end

/-- In every run of a node that starts with no sync session, each entry that is added to the block
index, apart from the genesis block, was received as a header with the same 80 bytes, and
`CheckHeaderProofOfWork` is true of the received header at the height of the entry. -/
theorem indexed_header_received_with_work (opts : NodeOptions) (node : Node)
    (hidle : ∀ peer, node.headersSync peer = none) (events : List NodeEvent) (pindex : CBlockIndex)
    (hindexed : pindex ∈ (node.run opts events).chainman.blockman.blockIndex)
    (hadded : pindex ∉ node.chainman.blockman.blockIndex)
    (hgenesis : pindex.phashBlock ≠ opts.params.hashGenesisBlock) :
    ∃ header ∈ events.flatMap NodeEvent.received,
      header.toCPureBlockHeader = pindex.getBlockHeader.toCPureBlockHeader ∧
        checkHeaderProofOfWork header opts.params (some pindex.nHeight) = true := by
  have hstart : Checked opts node.chainman.blockman.blockIndex [] node := by
    refine ⟨fun entry hentry => .inl hentry, fun peer session hsession => ?_⟩
    rw [hidle] at hsession
    cases hsession
  rcases (hstart.run events).index pindex hindexed with hknown | hfirst | hreceived
  · exact absurd hknown hadded
  · exact absurd hfirst hgenesis
  · exact hreceived

omit [Crypto]

/-- The first entry with the hash of its header. -/
def hashedEntry : CBlockIndex :=
  { firstEntry with
    phashBlock := @CPureBlockHeader.getHash .digits firstEntry.getBlockHeader.toCPureBlockHeader }

/-- A node that knows one block. -/
def firstNode : Node where
  chainman :=
    { blockman := ⟨[hashedEntry], fun _ => EntryStatus.initial, [CBlockFileInfo.empty], [], false⟩
      bestHeader := some hashedEntry
      activeTip := some hashedEntry }
  headersSync := fun _ => none

/-- A header on top of that block. -/
def firstHeader : CBlockHeader :=
  ⟨⟨0x20000000, hashedEntry.phashBlock, 0, 1600000060, 0x2001ffff, 0⟩, none⟩

/-- Its successor. -/
def secondHeader : CBlockHeader :=
  { firstHeader with
    hashPrevBlock := @CPureBlockHeader.getHash .digits firstHeader.toCPureBlockHeader
    nTime := 1600000120 }

/-- Full messages of one header: the two headers, and the two headers again. The session asks for
the work of both and has a commitment to the first one. -/
def lowWorkMessages : List NodeEvent :=
  [[firstHeader], [secondHeader], [firstHeader], [secondHeader]].map
    (.headers 0 ⟨1600000200, ⟨1, by decide⟩, fun hash => UInt64.ofNat hash.toNat, false⟩)

def lowWorkOptions : NodeOptions := ⟨mainParams, 257, 1⟩

/-- The first header comes to the index through a low-work session. -/
theorem indexed_header_received_with_work_firstHeader :
    ((@run Crypto.digits lowWorkOptions firstNode (lowWorkMessages.take 3)).headersSync 0).isSome ∧
      ∃ header ∈ lowWorkMessages.flatMap NodeEvent.received,
        header.toCPureBlockHeader = firstHeader.toCPureBlockHeader ∧
          @checkHeaderProofOfWork Crypto.digits header mainParams (some 1) = true :=
  ⟨by decide +kernel, @indexed_header_received_with_work .digits lowWorkOptions firstNode
    (fun _ => rfl) lowWorkMessages (@CBlockIndex.extend .digits hashedEntry firstHeader)
    (by decide +kernel) (by decide +kernel) (by decide +kernel)⟩

end Node

end Tidecoin
