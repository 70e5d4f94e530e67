import Tidecoin.HeadersSync.State

/-!
What a header sync session has seen determines its state. `presyncState` and `redownloadState` give
the state as a function of the headers accepted in the two phases; the step lemmas below show that
the code moves between these states, and what it rejects. Every result about runs of a session
rests on them and on no other unfolding of the code.
-/

namespace Tidecoin

open Lib CBlockIndex List RetargetBuffers CBlockHeader

namespace SyncConfig

variable [Crypto]

/-- The entry reached by the accepted headers on top of the chain start. -/
def tip (cfg : SyncConfig) (accepted : List CBlockHeader) : CBlockIndex :=
  cfg.chainStart.extendAll accepted

variable (cfg : SyncConfig) (accepted : List CBlockHeader) (header : CBlockHeader)

lemma tip_concat : cfg.tip (accepted ++ [header]) = (cfg.tip accepted).extend header :=
  extendAll_concat ..

lemma tip_nHeight : (cfg.tip accepted).nHeight = cfg.chainStart.nHeight + accepted.length :=
  extendAll_nHeight ..

/-- The retarget buffers of the accepted chain. -/
def buffers (cfg : SyncConfig) (accepted : List CBlockHeader) : RetargetBuffers :=
  RetargetBuffers.ofHistory cfg.params ((cfg.tip accepted).chain.map IndexEntry.sample)

lemma buffers_concat :
    cfg.buffers (accepted ++ [header]) = (cfg.buffers accepted).pushHeader cfg.params
      header.sample := by
  rw [buffers, buffers, tip_concat, pushHeader_ofHistory, extend_chain, map_cons]
  rfl

lemma buffers_nil : cfg.buffers [] = resetToChainStart cfg.params cfg.chainStart :=
  (resetToChainStart_eq cfg.params cfg.chainStart).symm

/-- The difficulty check both phases make for a header on top of the accepted ones. -/
def acceptsTarget (cfg : SyncConfig) (accepted : List CBlockHeader) (header : CBlockHeader) :
    Bool :=
  checkWindowAwareRetarget cfg.params (cfg.buffers accepted) (cfg.tip accepted).nBits header.nBits
    header.getBlockTime (cfg.tip accepted).getBlockTime ((cfg.tip accepted).nHeight + 1)

/-- Every header of a list passes the difficulty check on top of those before it. -/
def AcceptsTargets (cfg : SyncConfig) : (accepted headers : List CBlockHeader) → Prop
  | _, [] => True
  | accepted, header :: headers =>
    cfg.acceptsTarget accepted header = true ∧ cfg.AcceptsTargets (accepted ++ [header]) headers

lemma acceptsTargets_append {cfg : SyncConfig} {accepted headers headers' : List CBlockHeader} :
    cfg.AcceptsTargets accepted (headers ++ headers') ↔
      cfg.AcceptsTargets accepted headers ∧ cfg.AcceptsTargets (accepted ++ headers) headers' := by
  induction headers generalizing accepted with
  | nil => simp [AcceptsTargets]
  | cons header headers ih => simp [AcceptsTargets, ih, and_assoc]

/-- The header the first phase compares the next one with. -/
def lastHeader (cfg : SyncConfig) (accepted : List CBlockHeader) : CBlockHeader :=
  (accepted.getLast?.map CBlockHeader.withoutAuxpow).getD cfg.chainStart.getBlockHeader

lemma lastHeader_sample : (cfg.lastHeader accepted).sample = (cfg.tip accepted).sample := by
  rcases eq_nil_or_concat accepted with rfl | ⟨init, header, rfl⟩
  · rfl
  · rw [concat_eq_append, tip_concat, lastHeader, getLast?_concat]
    rfl

/-- The bits kept for headers that start at the given height. -/
def commitmentBits (cfg : SyncConfig) : (height : Int) → List CBlockHeader → List Bool
  | _, [] => []
  | height, header :: headers =>
    (if HeadersSyncState.commits cfg height then [HeadersSyncState.commitment cfg header] else [])
      ++ cfg.commitmentBits (height + 1) headers

lemma commitmentBits_append (height : Int) (headers headers' : List CBlockHeader) :
    cfg.commitmentBits height (headers ++ headers') =
      cfg.commitmentBits height headers ++ cfg.commitmentBits (height + headers.length)
        headers' := by
  induction headers generalizing height with
  | nil => simp [commitmentBits]
  | cons header headers ih =>
    have hheight : height + 1 + headers.length = height + (headers.length + 1 : Nat) := by
      push_cast
      ring
    rw [cons_append, commitmentBits, commitmentBits, ih, append_assoc, length_cons, hheight]

/-- The bits kept for the accepted headers. -/
def bits (cfg : SyncConfig) (accepted : List CBlockHeader) : List Bool :=
  cfg.commitmentBits (cfg.chainStart.nHeight + 1) accepted

lemma bits_append (headers : List CBlockHeader) : cfg.bits (accepted ++ headers) =
      cfg.bits accepted ++ cfg.commitmentBits ((cfg.tip accepted).nHeight + 1) headers := by
  have hheight : cfg.chainStart.nHeight + 1 + accepted.length = (cfg.tip accepted).nHeight + 1 := by
    rw [tip_nHeight]
    ring
  rw [bits, bits, commitmentBits_append, hheight]

lemma bits_concat : cfg.bits (accepted ++ [header]) = cfg.bits accepted ++
      if HeadersSyncState.commits cfg ((cfg.tip accepted).nHeight + 1)
      then [HeadersSyncState.commitment cfg header] else [] := by
  rw [bits_append, commitmentBits, commitmentBits, append_nil]

/-- The redownloaded headers have carried enough work at some point. -/
def reached (cfg : SyncConfig) : CBlockIndex → List CBlockHeader → Bool
  | _, [] => false
  | pindex, header :: headers =>
    (pindex.extend header).nChainWork ≥ cfg.minimumRequiredWork ||
      cfg.reached (pindex.extend header) headers

lemma reached_append (pindex : CBlockIndex) (headers headers' : List CBlockHeader) :
    cfg.reached pindex (headers ++ headers') =
      (cfg.reached pindex headers || cfg.reached (pindex.extendAll headers) headers') := by
  induction headers generalizing pindex with
  | nil => simp [reached]
  | cons header headers ih => simp [reached, ih, Bool.or_assoc]

/-- The minimum work has been reached by the accepted headers. -/
def workReached (cfg : SyncConfig) (accepted : List CBlockHeader) : Bool :=
  cfg.reached cfg.chainStart accepted

lemma workReached_of_append {cfg : SyncConfig} {accepted headers : List CBlockHeader}
    (hunreached : cfg.workReached (accepted ++ headers) = false) :
    cfg.workReached accepted = false := by
  rw [workReached, reached_append, Bool.or_eq_false_iff] at hunreached
  exact hunreached.1

lemma workReached_concat : cfg.workReached (accepted ++ [header]) = (cfg.workReached accepted ||
        (cfg.tip (accepted ++ [header])).nChainWork ≥ cfg.minimumRequiredWork) := by
  rw [workReached, workReached, reached_append, tip_concat]
  simp [reached, tip]

end SyncConfig

/-- Headers that follow each other from a given hash on. -/
def Linked [Crypto] : Uint256 → List CBlockHeader → Prop
  | _, [] => True
  | prevHash, header :: headers => header.hashPrevBlock = prevHash ∧ Linked header.getHash headers

/-- The hash after a list of headers. -/
def lastHash [Crypto] (prevHash : Uint256) (headers : List CBlockHeader) : Uint256 :=
  headers.foldl (fun _ header => header.getHash) prevHash

lemma linked_append [Crypto] {prevHash : Uint256} {headers headers' : List CBlockHeader} :
    Linked prevHash (headers ++ headers') ↔
      Linked prevHash headers ∧ Linked (lastHash prevHash headers) headers' := by
  induction headers generalizing prevHash with
  | nil => simp [Linked, lastHash]
  | cons header headers ih => simp [Linked, ih, lastHash, and_assoc]

lemma SyncConfig.tip_phashBlock [Crypto] (cfg : SyncConfig) (accepted : List CBlockHeader) :
    (cfg.tip accepted).phashBlock = lastHash cfg.chainStart.phashBlock accepted := by
  rcases eq_nil_or_concat accepted with rfl | ⟨init, header, rfl⟩
  · rfl
  · rw [concat_eq_append, tip_concat, lastHash, foldl_concat]
    rfl

namespace HeadersSyncState

variable [Crypto]

/-- The state of a session that accepted these headers in its first phase. -/
def presyncState (cfg : SyncConfig) (accepted : List CBlockHeader) : HeadersSyncState :=
  { init cfg with
    currentChainWork := (cfg.tip accepted).nChainWork
    headerCommitments := cfg.bits accepted
    lastHeaderReceived := cfg.lastHeader accepted
    currentHeight := (cfg.tip accepted).nHeight
    retargetBuffers := cfg.buffers accepted }

variable (cfg : SyncConfig) (accepted presync : List CBlockHeader) (commitments : List Bool)

lemma presyncState_nil : presyncState cfg [] = init cfg := by
  rw [presyncState, SyncConfig.buffers_nil]
  rfl

lemma seedRetargetBuffers_presyncState :
    (presyncState cfg accepted).seedRetargetBuffers cfg = presyncState cfg accepted := by
  have hwindow := cfg.params.windowPos
  have hlength : 0 < (presyncState cfg accepted).retargetBuffers.recentNbits.length := by
    simp [presyncState, SyncConfig.buffers, ofHistory, CBlockIndex.chain, hwindow]
  rw [seedRetargetBuffers, if_neg]
  intro hempty
  rw [List.isEmpty_iff] at hempty
  rw [hempty] at hlength
  exact Nat.lt_irrefl 0 hlength

lemma validateAndProcessSingleHeader_presyncState (header : CBlockHeader) :
    validateAndProcessSingleHeader cfg (presyncState cfg accepted) header =
      if cfg.acceptsTarget accepted header then
        if commits cfg ((cfg.tip accepted).nHeight + 1) ∧
            (cfg.bits (accepted ++ [header])).length > cfg.maxCommitments then
          ({ presyncState cfg accepted with headerCommitments := cfg.bits (accepted ++ [header]) },
            some .exceededMaxCommitments)
        else (presyncState cfg (accepted ++ [header]), none)
      else (presyncState cfg accepted, some .invalidDifficultyTransition) := by
  have hsample := cfg.lastHeader_sample accepted
  have hnbits : (cfg.lastHeader accepted).nBits = (cfg.tip accepted).nBits :=
    congrArg RetargetSample.nBits hsample
  have htime : (cfg.lastHeader accepted).getBlockTime = (cfg.tip accepted).getBlockTime :=
    congrArg RetargetSample.time hsample
  have hcheck : checkWindowAwareRetarget cfg.params (presyncState cfg accepted).retargetBuffers
      (presyncState cfg accepted).lastHeaderReceived.nBits header.nBits header.getBlockTime
      (presyncState cfg accepted).lastHeaderReceived.getBlockTime
      ((cfg.tip accepted).nHeight + 1) = cfg.acceptsTarget accepted header := by
    rw [SyncConfig.acceptsTarget, ← hnbits, ← htime]
    rfl
  have hstored : presyncState cfg (accepted ++ [header]) = { presyncState cfg accepted with
        headerCommitments := cfg.bits (accepted ++ [header])
        currentChainWork := (cfg.tip accepted).nChainWork + getBlockProof header.nBits
        lastHeaderReceived := header.withoutAuxpow
        currentHeight := (cfg.tip accepted).nHeight + 1
        retargetBuffers := (cfg.buffers accepted).pushHeader cfg.params header.sample } := by
    simp [presyncState, cfg.tip_concat, cfg.buffers_concat, SyncConfig.lastHeader, extend]
  have hphase : (presyncState cfg accepted).downloadState = .presync := rfl
  have hheight : (presyncState cfg accepted).currentHeight = (cfg.tip accepted).nHeight := rfl
  simp only [validateAndProcessSingleHeader, hphase, seedRetargetBuffers_presyncState, hcheck,
    hstored, cfg.bits_concat, hheight]
  cases haccept : cfg.acceptsTarget accepted header with
  | false => simp
  | true =>
    cases hcommits : commits cfg ((cfg.tip accepted).nHeight + 1) with
    | false => simp [presyncState, init]
    | true => simp [presyncState]

variable {accepted : List CBlockHeader}

/-- A batch of the first phase is taken as a whole, or given up; then a target was refused, or
there are more commitments than the session keeps. -/
theorem forEachHeader_presyncState {cfg : SyncConfig}
    (hkept : (cfg.bits accepted).length ≤ cfg.maxCommitments) (headers : List CBlockHeader) :
    (forEachHeader (validateAndProcessSingleHeader cfg) (presyncState cfg accepted) headers =
        (presyncState cfg (accepted ++ headers), none) ∧ cfg.AcceptsTargets accepted headers ∧
        (cfg.bits (accepted ++ headers)).length ≤ cfg.maxCommitments) ∨
      ∃ state abort,
        forEachHeader (validateAndProcessSingleHeader cfg) (presyncState cfg accepted) headers =
          (state, some abort) ∧
        (abort = .invalidDifficultyTransition → ¬cfg.AcceptsTargets accepted headers) ∧
        (cfg.AcceptsTargets accepted headers →
          cfg.maxCommitments < (cfg.bits (accepted ++ headers)).length) := by
  induction headers generalizing accepted with
  | nil => exact .inl ⟨by simp [forEachHeader], trivial, by simpa using hkept⟩
  | cons header headers ih =>
    have hsplit : accepted ++ header :: headers = accepted ++ [header] ++ headers := by simp
    rw [forEachHeader, validateAndProcessSingleHeader_presyncState, hsplit]
    cases haccept : cfg.acceptsTarget accepted header with
    | false =>
      have hrefused : ¬cfg.AcceptsTargets accepted (header :: headers) := by
        intro haccepts
        rw [haccepts.1] at haccept
        cases haccept
      exact .inr ⟨presyncState cfg accepted, .invalidDifficultyTransition, by simp, fun _ =>
        hrefused,
        fun haccepts => absurd haccepts hrefused⟩
    | true =>
      by_cases hmany : commits cfg ((cfg.tip accepted).nHeight + 1) = true ∧
          (cfg.bits (accepted ++ [header])).length > cfg.maxCommitments
      · refine .inr ⟨_, .exceededMaxCommitments, by rw [if_pos rfl, if_pos hmany], ?_, ?_⟩
        · intro hreason
          cases hreason
        · intro _
          rw [cfg.bits_append, length_append]
          exact lt_of_lt_of_le hmany.2 (Nat.le_add_right _ _)
      · have hkept' : (cfg.bits (accepted ++ [header])).length ≤ cfg.maxCommitments := by
          cases hcommits : commits cfg ((cfg.tip accepted).nHeight + 1) with
          | true => exact not_lt.1 fun hlt => hmany ⟨hcommits, hlt⟩
          | false => simpa [cfg.bits_concat, hcommits] using hkept
        rw [if_pos rfl, if_neg hmany]
        rcases ih hkept' with ⟨hrun, haccepts, hbits⟩ | ⟨state, abort, hrun, hdiff, hfit⟩
        · exact .inl ⟨hrun, ⟨haccept, haccepts⟩, hbits⟩
        · exact .inr ⟨state, abort, hrun, fun hreason haccepts => hdiff hreason haccepts.2,
            fun haccepts => hfit haccepts.2⟩

/-- The state of a session that accepted `presync` in its first phase and `accepted` in its second,
has released the first `released` of these and still holds `commitments`. -/
def redownloadState (cfg : SyncConfig) (presync accepted : List CBlockHeader) (released : Nat)
    (commitments : List Bool) : HeadersSyncState :=
  { presyncState cfg presync with
    downloadState := .redownload
    headerCommitments := commitments
    redownloadedHeaders := (accepted.drop released).map CBlockHeader.compress
    redownloadBufferLastHeight := (cfg.tip accepted).nHeight
    redownloadBufferLastHash := (cfg.tip accepted).phashBlock
    redownloadBufferFirstPrevHash := (cfg.tip (accepted.take released)).phashBlock
    redownloadChainWork := (cfg.tip accepted).nChainWork
    processAllRemainingHeaders := cfg.workReached accepted
    retargetBuffers := cfg.buffers accepted }

lemma startRedownload_presyncState : (presyncState cfg presync).startRedownload cfg =
      if (cfg.tip presync).nChainWork ≥ cfg.minimumRequiredWork then
        redownloadState cfg presync [] 0 (cfg.bits presync)
      else presyncState cfg presync := by
  rw [startRedownload, ← cfg.buffers_nil]
  rfl

variable {released : Nat}

variable (hbuffered : accepted = [] ∨ released < accepted.length)

include hbuffered in
/-- While a buffered header is left, or before the first one, the previous target and time are
those of the accepted chain. -/
theorem redownloadPrevious_redownloadState :
    (redownloadState cfg presync accepted released commitments).redownloadPrevious cfg =
      (cfg.tip accepted).sample := by
  rcases eq_nil_or_concat accepted with rfl | ⟨init, header, rfl⟩
  · simp [redownloadPrevious, redownloadState, SyncConfig.tip]
  · have hle : released ≤ init.length := by
      rcases hbuffered with hnil | hlt
      · simp at hnil
      · simpa [Nat.lt_succ_iff] using hlt
    have hlast : (redownloadState cfg presync (init.concat header) released
        commitments).redownloadedHeaders.getLast? = some header.compress := by
      simp only [redownloadState, concat_eq_append]
      rw [drop_append_of_le_length hle, map_append, map_singleton, getLast?_concat]
    rw [redownloadPrevious, hlast, concat_eq_append, cfg.tip_concat]
    rfl

lemma trackRedownloadWork_redownloadState (accepted : List CBlockHeader) (released : Nat)
    (commitments : List Bool) (header : CBlockHeader) :
    (redownloadState cfg presync accepted released commitments).trackRedownloadWork cfg header =
      { redownloadState cfg presync accepted released commitments with
        redownloadChainWork := (cfg.tip (accepted ++ [header])).nChainWork
        processAllRemainingHeaders := cfg.workReached (accepted ++ [header]) } := by
  simp only [trackRedownloadWork, cfg.workReached_concat, cfg.tip_concat]
  rfl

lemma storeRedownloaded_redownloadState (hreleased : released ≤ accepted.length)
    (commitments rest : List Bool) (header : CBlockHeader) :
    storeRedownloaded cfg
      { (redownloadState cfg presync accepted released commitments).trackRedownloadWork cfg
        header with
        headerCommitments := rest } header =
      redownloadState cfg presync (accepted ++ [header]) released rest := by
  rw [trackRedownloadWork_redownloadState]
  simp only [storeRedownloaded, redownloadState, cfg.tip_concat, cfg.buffers_concat,
    drop_append_of_le_length hreleased, take_append_of_le_length hreleased,
    map_append, map_singleton, extend]

include hbuffered in
/-- One header of the second phase: it is rejected for one of four reasons, or stored, and then
the commitment it was compared with, if any, has been taken from the front of the queue. -/
theorem validateAndStoreRedownloadedHeader_redownloadState (hreleased : released ≤ accepted.length)
    (header : CBlockHeader) :
    (∃ state abort, validateAndStoreRedownloadedHeader cfg
        (redownloadState cfg presync accepted released commitments) header = (state, some abort) ∧
        (abort = .nonContinuous ∧ header.hashPrevBlock ≠ (cfg.tip accepted).phashBlock ∨
          abort = .invalidDifficultyTransition ∧ cfg.acceptsTarget accepted header = false ∨
          (abort = .commitmentOverrun ∨ abort = .commitmentMismatch) ∧
            cfg.workReached (accepted ++ [header]) = false ∧
            commits cfg ((cfg.tip accepted).nHeight + 1) ∧
            commitments.head? ≠ some (commitment cfg header))) ∨
      ∃ rest, validateAndStoreRedownloadedHeader cfg
          (redownloadState cfg presync accepted released commitments) header =
          (redownloadState cfg presync (accepted ++ [header]) released rest, none) ∧
        header.hashPrevBlock = (cfg.tip accepted).phashBlock ∧
        cfg.acceptsTarget accepted header ∧
        (cfg.workReached (accepted ++ [header]) = false →
          commitments = (if commits cfg ((cfg.tip accepted).nHeight + 1)
            then [commitment cfg header] else []) ++ rest) := by
  have hprevious := redownloadPrevious_redownloadState cfg presync commitments hbuffered
  have hstored := fun rest => storeRedownloaded_redownloadState cfg presync hreleased commitments
    rest header
  generalize hstate : redownloadState cfg presync accepted released commitments = state at *
  have hphase : state.downloadState = .redownload := hstate ▸ rfl
  have hheight : state.redownloadBufferLastHeight = (cfg.tip accepted).nHeight := hstate ▸ rfl
  have hlast : state.redownloadBufferLastHash = (cfg.tip accepted).phashBlock := hstate ▸ rfl
  have hcheck : checkWindowAwareRetarget cfg.params state.retargetBuffers
      (cfg.tip accepted).sample.nBits header.nBits header.getBlockTime
      (cfg.tip accepted).sample.time ((cfg.tip accepted).nHeight + 1) =
      cfg.acceptsTarget accepted header := hstate ▸ rfl
  have hqueue : (state.trackRedownloadWork cfg header).headerCommitments = commitments :=
    hstate ▸ rfl
  have hprocess : (state.trackRedownloadWork cfg header).processAllRemainingHeaders =
      cfg.workReached (accepted ++ [header]) := by
    rw [← hstate, trackRedownloadWork_redownloadState]
  simp only [validateAndStoreRedownloadedHeader, hphase, hprevious, hheight, hlast, hcheck,
    hprocess, checkCommitment, hqueue]
  generalize state.trackRedownloadWork cfg header = tracked at *
  by_cases hlink : header.hashPrevBlock = (cfg.tip accepted).phashBlock
  case neg =>
    exact .inl ⟨state, .nonContinuous, by simp [hlink], .inl ⟨rfl, hlink⟩⟩
  cases haccept : cfg.acceptsTarget accepted header with
  | false =>
    exact .inl ⟨state, .invalidDifficultyTransition, by simp [hlink], .inr (.inl ⟨rfl, rfl⟩)⟩
  | true =>
    -- From here on only the commitment check can reject the header.
    cases hcompare : !cfg.workReached (accepted ++ [header]) &&
        commits cfg ((cfg.tip accepted).nHeight + 1) with
    | false =>
      have hkept : tracked = { tracked with headerCommitments := commitments } := by
        rw [← hqueue]
      refine .inr ⟨commitments, ?_, hlink, rfl, ?_⟩
      · simp only [hlink, not_true_eq_false, ne_eq, if_false, Bool.not_true, Bool.false_eq_true]
        rw [hkept, hstored]
      · intro hunreached
        simp only [hunreached, Bool.not_false, Bool.true_and] at hcompare
        simp [hcompare]
    | true =>
      simp only [Bool.and_eq_true, Bool.not_eq_true'] at hcompare
      cases hcommitments : commitments with
      | nil =>
        exact .inl ⟨tracked, .commitmentOverrun, by simp [hlink],
          .inr (.inr ⟨.inl rfl, hcompare.1, hcompare.2, by simp⟩)⟩
      | cons expected rest =>
        by_cases hmatch : commitment cfg header = expected
        · refine .inr ⟨rest, ?_, hlink, rfl, fun _ => by simp [hcompare.2, hmatch]⟩
          simp only [hlink, hmatch, not_true_eq_false, ne_eq, if_false, if_true,
            Bool.not_true, Bool.false_eq_true]
          rw [← hprocess, hstored]
        · exact .inl ⟨_, .commitmentMismatch, by simp [hlink, hmatch]; rfl,
            .inr (.inr ⟨.inr rfl, hcompare.1, hcompare.2, by simp [Ne.symm hmatch]⟩)⟩

/-- Why a batch of the second phase is given up: at a header that does not connect, has a refused
target, or contradicts the stored commitments before the work is reached. -/
abbrev RefusedFor (accepted headers : List CBlockHeader) (abort : SyncAbort) : Prop :=
  abort = .nonContinuous ∧ ¬Linked (cfg.tip accepted).phashBlock headers ∨
    abort = .invalidDifficultyTransition ∧ ¬cfg.AcceptsTargets accepted headers ∨
    (abort = .commitmentOverrun ∨ abort = .commitmentMismatch) ∧
      ∃ served, served <+: headers ∧ cfg.workReached (accepted ++ served) = false ∧
        ¬cfg.commitmentBits ((cfg.tip accepted).nHeight + 1) served <+: commitments

include hbuffered in
/-- A batch of the second phase is taken as a whole or refused. -/
theorem forEachHeader_redownloadState
    (hreleased : released ≤ accepted.length) (headers : List CBlockHeader) :
    (∃ rest, forEachHeader (validateAndStoreRedownloadedHeader cfg)
        (redownloadState cfg presync accepted released commitments) headers =
          (redownloadState cfg presync (accepted ++ headers) released rest, none) ∧
        Linked (cfg.tip accepted).phashBlock headers ∧ cfg.AcceptsTargets accepted headers ∧
        (cfg.workReached (accepted ++ headers) = false → commitments =
          cfg.commitmentBits ((cfg.tip accepted).nHeight + 1) headers ++ rest)) ∨
      ∃ state abort, forEachHeader (validateAndStoreRedownloadedHeader cfg)
          (redownloadState cfg presync accepted released commitments) headers =
            (state, some abort) ∧
        RefusedFor cfg commitments accepted headers abort := by
  induction headers generalizing accepted commitments with
  | nil =>
    refine .inl ⟨commitments, ?_, trivial, trivial, fun _ => rfl⟩
    rw [append_nil]
    rfl
  | cons header headers ih =>
    have hsplit : accepted ++ header :: headers = accepted ++ [header] ++ headers := by simp
    rw [forEachHeader, hsplit]
    rcases validateAndStoreRedownloadedHeader_redownloadState cfg presync commitments hbuffered
        hreleased header with
      ⟨state, abort, hstep, hreason⟩ | ⟨rest, hstep, hlink, haccept, hqueue⟩
    · refine .inr ⟨state, abort, by rw [hstep], ?_⟩
      rcases hreason with ⟨habort, hlink⟩ | ⟨habort, haccept⟩ | ⟨habort, hunreached,
        hcommits, hhead⟩
      · exact .inl ⟨habort, fun hlinked => hlink hlinked.1⟩
      · refine .inr (.inl ⟨habort, fun haccepts => ?_⟩)
        rw [haccepts.1] at haccept
        cases haccept
      · refine .inr (.inr ⟨habort, [header], ⟨headers, rfl⟩, hunreached, fun hinitial => hhead ?_⟩)
        obtain ⟨more, hmore⟩ := hinitial
        rw [← hmore, SyncConfig.commitmentBits, if_pos hcommits]
        rfl
    · have hnext : cfg.tip (accepted ++ [header]) = (cfg.tip accepted).extend header :=
        cfg.tip_concat accepted header
      have hbits : ∀ served, cfg.commitmentBits ((cfg.tip accepted).nHeight + 1)
          (header :: served) = (if commits cfg ((cfg.tip accepted).nHeight + 1)
            then [commitment cfg header] else []) ++
            cfg.commitmentBits ((cfg.tip (accepted ++ [header])).nHeight + 1) served := by
        intro served
        rw [hnext]
        rfl
      have hhash : (cfg.tip (accepted ++ [header])).phashBlock = header.getHash := by
        rw [hnext]
        rfl
      have hlonger : released < (accepted ++ [header]).length := by
        rw [length_append, length_singleton]
        omega
      rw [hstep]
      rcases ih rest (.inr hlonger) hlonger.le with
        ⟨rest', hrun, hlinked, haccepts, hqueue'⟩ | ⟨state, abort, hrun, hreason⟩
      · refine .inl ⟨rest', hrun, ⟨hlink, hhash ▸ hlinked⟩, ⟨haccept, haccepts⟩, ?_⟩
        intro hunreached
        rw [hbits, append_assoc, ← hqueue' hunreached,
          ← hqueue (SyncConfig.workReached_of_append hunreached)]
      · refine .inr ⟨state, abort, hrun, ?_⟩
        rcases hreason with ⟨habort, hnot⟩ | ⟨habort, hnot⟩ | ⟨habort, served, hserved,
          hunreached, hnot⟩
        · exact .inl ⟨habort, fun hlinked => hnot (hhash ▸ hlinked.2)⟩
        · exact .inr (.inl ⟨habort, fun haccepts => hnot haccepts.2⟩)
        · refine .inr (.inr ⟨habort, header :: served, ?_, ?_, ?_⟩)
          · exact cons_prefix_cons.2 ⟨rfl, hserved⟩
          · simpa using hunreached
          · rw [hbits, hqueue (SyncConfig.workReached_of_append hunreached),
              prefix_append_right_inj]
            exact hnot

omit [Crypto] in
/-- How many of the buffered headers a batch releases. -/
def releasable (processAll : Bool) (buffered : Nat) : Nat :=
  if processAll then buffered else buffered - redownloadBufferSize

lemma popLoop_linked (processAll : Bool) {prevHash : Uint256} {headers : List CBlockHeader}
    (hlinked : Linked prevHash headers) :
    popLoop processAll (headers.map compress) prevHash =
      ((headers.take (releasable processAll headers.length)).map withoutAuxpow,
        (headers.drop (releasable processAll headers.length)).map compress,
        lastHash prevHash (headers.take (releasable processAll headers.length))) := by
  induction headers generalizing prevHash with
  | nil => simp [popLoop, lastHash]
  | cons header headers ih =>
    obtain ⟨hprev, hrest⟩ := hlinked
    have hfull : header.compress.getFullHeader prevHash = header.withoutAuxpow := by
      rw [← hprev, header.compress_getFullHeader]
    rw [map_cons, popLoop, hfull, length_cons, length_map]
    split
    case isTrue hready =>
      have hcount : releasable processAll (headers.length + 1) =
          releasable processAll headers.length + 1 := by
        cases processAll with
        | true => rfl
        | false =>
          simp only [releasable, Bool.false_eq_true, or_false, gt_iff_lt] at hready ⊢
          simp only [if_false]
          omega
      simp only [withoutAuxpow_toCPureBlockHeader, ih hrest, hcount,
        length_cons, take_succ_cons, map_cons, drop_succ_cons]
      rfl
    case isFalse hkept =>
      rw [not_or, Bool.not_eq_true] at hkept
      have hcount : releasable processAll (headers.length + 1) = 0 := by
        rw [hkept.2, releasable, if_neg nofun]
        omega
      rw [length_cons, hcount]
      rfl

lemma popHeadersReadyForAcceptance_redownloadState {cfg : SyncConfig} {presync : List CBlockHeader}
    {commitments : List Bool} (hlinked : Linked cfg.chainStart.phashBlock accepted) :
    (redownloadState cfg presync accepted released commitments).popHeadersReadyForAcceptance =
      (((accepted.drop released).take (releasable (cfg.workReached accepted)
          (accepted.length - released))).map withoutAuxpow,
        redownloadState cfg presync accepted (released + releasable (cfg.workReached accepted)
          (accepted.length - released)) commitments) := by
  have hrest : Linked (cfg.tip (accepted.take released)).phashBlock (accepted.drop released) := by
    rw [← take_append_drop released accepted, linked_append] at hlinked
    rw [cfg.tip_phashBlock]
    exact hlinked.2
  have hpop := popLoop_linked (cfg.workReached accepted) hrest
  rw [length_drop] at hpop
  have hhash : ∀ count, lastHash (cfg.tip (accepted.take released)).phashBlock
      ((accepted.drop released).take count) =
      (cfg.tip (accepted.take (released + count))).phashBlock := by
    intro count
    rw [cfg.tip_phashBlock, cfg.tip_phashBlock, take_add, lastHash, lastHash, lastHash,
      foldl_append]
  rw [hhash, drop_drop] at hpop
  simp only [popHeadersReadyForAcceptance, redownloadState, hpop]

end HeadersSyncState

end Tidecoin
