import Tidecoin.HeadersSync.Run

/-!
The difficulty check of the header sync against the consensus rule. Over every run of a session the
retarget buffers mirror the chain that was streamed, so headers that carry the targets consensus
demands are never refused. On the main network the check is never reached, which leaves the targets
of a low-work chain unbounded.
-/

namespace Tidecoin

open Lib CBlockIndex List SyncConfig

variable {headers : List CBlockHeader} {accepted : List CBlockHeader} {header : CBlockHeader}

/-- Every header carries the target its predecessor demands. -/
def RequiredWork [Crypto] (params : Params) : CBlockIndex → List CBlockHeader → Prop
  | _, [] => True
  | pindexLast, header :: headers =>
    getNextWorkRequired pindexLast header params = some header.nBits ∧
      RequiredWork params (pindexLast.extend header) headers

lemma requiredWork_append [Crypto] {params : Params} {pindex : CBlockIndex}
    {headers' : List CBlockHeader} :
    RequiredWork params pindex (headers ++ headers') ↔
      RequiredWork params pindex headers ∧ RequiredWork params (pindex.extendAll headers)
        headers' := by
  induction headers generalizing pindex with
  | nil => simp [RequiredWork]
  | cons header headers ih => simp [RequiredWork, ih, and_assoc]

/-- The entry and its ancestors, each with its own chain. -/
def CBlockIndex.lineage (pindex : CBlockIndex) : List CBlockIndex := pindex :: go pindex.ancestors
where
  go : List IndexEntry → List CBlockIndex
    | [] => []
    | entry :: ancestors => ⟨entry, ancestors⟩ :: go ancestors

lemma windowMap_medianTime_eq_lineage (pindex : CBlockIndex) :
    windowMap medianTimeSpan medianTime (pindex.chain.map IndexEntry.getBlockTime) =
      pindex.lineage.map getMedianTimePast := by
  have hgo : ∀ ancestors : List IndexEntry,
      windowMap medianTimeSpan medianTime (ancestors.map IndexEntry.getBlockTime) =
        (lineage.go ancestors).map getMedianTimePast := by
    intro ancestors
    induction ancestors with
    | nil => rfl
    | cons entry ancestors ih =>
      rw [map_cons, windowMap, ih]
      rfl
  rw [lineage, map_cons, ← hgo]
  rfl

namespace HeadersSyncState

variable [Crypto]

lemma acceptsTargets_of_requiredWork {cfg : SyncConfig}
    (hrequired : RequiredWork cfg.params (cfg.tip accepted) headers) :
    cfg.AcceptsTargets accepted headers := by
  induction headers generalizing accepted with
  | nil => trivial
  | cons header headers ih =>
    refine ⟨checkWindowAwareRetarget_of_required _ hrequired.1, ih ?_⟩
    rw [cfg.tip_concat]
    exact hrequired.2

/-- The headers a session has accepted in the phase it is in. -/
def currentChain (cfg : SyncConfig) (batches : List SyncBatch) : List CBlockHeader :=
  acceptedIn (runState cfg (init cfg) batches).downloadState (run cfg (init cfg) batches)

/-- The buffers of a session that has not ended are those of the chain accepted in its current
phase. -/
theorem retargetBuffers_runState {cfg : SyncConfig} {batches : List SyncBatch}
    (hlive : (runState cfg (init cfg) batches).downloadState ≠ .final) :
    (runState cfg (init cfg) batches).retargetBuffers = cfg.buffers (currentChain cfg batches) := by
  obtain ⟨released, hsession, -⟩ := sessionAt_run cfg batches
  rw [currentChain]
  generalize runState cfg (init cfg) batches = state at *
  generalize hpresync : acceptedIn .presync (run cfg (init cfg) batches) = presync at *
  generalize haccepted : acceptedIn .redownload (run cfg (init cfg) batches) = accepted at *
  cases hsession with
  | presync =>
    change cfg.buffers presync = cfg.buffers (acceptedIn .presync _)
    rw [hpresync]
  | redownload =>
    change cfg.buffers accepted = cfg.buffers (acceptedIn .redownload _)
    rw [haccepted]
  | final _ hphase => exact absurd hphase hlive

/-- The buffers mirror the last entries of a chain: the targets of the window, the median times of
the window and of the entry before it, and with a full window the target consensus demands next. -/
structure MirrorsChain (params : Params) (buffers : RetargetBuffers) (tip : CBlockIndex) :
    Prop where
  nbits : buffers.recentNbits =
    recent params.nPowAveragingWindow (tip.lineage.map fun pindex => pindex.nBits)
  mtp : buffers.recentMtp =
    recent (params.nPowAveragingWindow + 1) (tip.lineage.map CBlockIndex.getMedianTimePast)
  target : ∀ header : CBlockHeader, params.fPowNoRetargeting = false →
    minDifficultyAfterHeight params tip.nHeight header.getBlockTime tip.getBlockTime = false →
    params.nPowAveragingWindow < tip.chain.length →
    buffers.expectedNbits params = getNextWorkRequiredNew tip header params

lemma buffers_mirrorsChain (cfg : SyncConfig) (accepted : List CBlockHeader) :
    MirrorsChain cfg.params (cfg.buffers accepted) (cfg.tip accepted) := by
  have hnbits :
      ∀ ancestors : List IndexEntry, (lineage.go ancestors).map (fun pindex => pindex.nBits) =
        (ancestors.map IndexEntry.sample).map RetargetSample.nBits := by
    intro ancestors
    induction ancestors with
    | nil => rfl
    | cons entry ancestors ih =>
      rw [lineage.go, map_cons, ih]
      rfl
  refine ⟨?_, ?_, ?_⟩
  · rw [lineage, map_cons, hnbits]
    rfl
  · rw [← windowMap_medianTime_eq_lineage, ← map_sample_time]
    rfl
  · intro header hretarget hmin hlong
    cases hdrop : (cfg.tip accepted).chain.drop cfg.params.nPowAveragingWindow with
    | nil =>
      rw [drop_eq_nil_iff] at hdrop
      omega
    | cons first ancestors =>
      rw [buffers, RetargetBuffers.expectedNbits_ofHistory hdrop,
        getNextWorkRequiredNew, hretarget, hmin, if_neg Bool.false_ne_true,
        if_neg Bool.false_ne_true, hdrop]

/-- A header sync never gives up on a chain for its targets when each of them is the one consensus
demands, whatever was served before and however the headers are cut into batches: after any list
of batches, if the headers accepted in the current phase followed by the next batch are such a
chain, the batch is not refused for a difficulty transition. The reason is that the buffers mirror
the accepted chain. -/
theorem no_abort_for_required_targets {cfg : SyncConfig} {batches : List SyncBatch}
    {next : SyncBatch}
    (hrequired : RequiredWork cfg.params cfg.chainStart (currentChain cfg batches ++
      next.headers)) :
    (call cfg (runState cfg (init cfg) batches) next).result.abort ≠ some
      .invalidDifficultyTransition ∧
      ((runState cfg (init cfg) batches).downloadState ≠ .final →
        MirrorsChain cfg.params (runState cfg (init cfg) batches).retargetBuffers
          (cfg.tip (currentChain cfg batches))) := by
  constructor
  · intro habort
    obtain ⟨released, hsession, -⟩ := sessionAt_run cfg batches
    obtain ⟨count, hspec⟩ := hsession.callSpec next
    have haccepts : cfg.AcceptsTargets (currentChain cfg batches) next.headers :=
      acceptsTargets_of_requiredWork (requiredWork_append.1 hrequired).2
    rw [currentChain] at haccepts
    rcases hspec.difficulty habort with ⟨hphase, hnot⟩ | ⟨hphase, hnot⟩
    · change (runState cfg (init cfg) batches).downloadState = .presync at hphase
      rw [hphase] at haccepts
      exact hnot haccepts
    · change (runState cfg (init cfg) batches).downloadState = .redownload at hphase
      rw [hphase] at haccepts
      exact hnot haccepts
  · intro hlive
    rw [retargetBuffers_runState hlive]
    exact buffers_mirrorsChain cfg (currentChain cfg batches)

section

omit [Crypto]

/-- A chain of thirty entries past the first window after the start of merged mining on the test
network, a minute apart and at the limit. -/
def windowedChain : CBlockIndex where
  phashBlock := 1
  nHeight := 1029
  nChainWork := 60000
  nVersion := 0x20000000
  hashMerkleRoot := 0
  nTime := 1700001740
  nBits := 0x2001ffff
  nNonce := 0
  ancestors := (List.range 29).map fun i : Nat => ⟨BitVec.ofNat 256 (2 + i), 1028 - i,
    BitVec.ofNat 256 (59998 - 2 * i), 0x20000000, 0, 1700001680 - 60 * UInt32.ofNat i,
    0x2001ffff, 0⟩

/-- A session on top of `windowedChain`. -/
def windowedConfig : SyncConfig where
  params := testNetParams
  chainStart := windowedChain
  minimumRequiredWork := 100000
  commitOffset := ⟨0, by decide⟩
  hasher _ := 0
  maxCommitments := 1000

/-- A header a minute after `windowedChain` with the target demanded there. -/
def windowedHeader : CBlockHeader where
  nVersion := 0x20000000
  hashPrevBlock := 1
  hashMerkleRoot := 0
  nTime := 1700001800
  nBits := 0x2001fffe
  nNonce := 0
  auxpow := none

theorem no_abort_for_required_targets_windowed :
    @RequiredWork Crypto.digits testNetParams windowedChain [windowedHeader] ∧
      (@call Crypto.digits windowedConfig (@runState Crypto.digits windowedConfig
        (init windowedConfig) []) ⟨[windowedHeader], true⟩).result.abort ≠
          some .invalidDifficultyTransition := by
  have hrequired : @RequiredWork .digits testNetParams windowedChain [windowedHeader] := by
    refine ⟨?_, trivial⟩
    decide +kernel
  have hserved : @RequiredWork .digits windowedConfig.params windowedConfig.chainStart
      (@currentChain .digits windowedConfig [] ++ [windowedHeader]) := hrequired
  exact ⟨hrequired, (@no_abort_for_required_targets .digits windowedConfig []
    ⟨[windowedHeader], true⟩ hserved).1⟩

end

omit [Crypto] in
/-- Every header is a transition `PermittedDifficultyTransition` allows. -/
def PermittedChain (params : Params) : (height : Int) → (prevNbits : UInt32) →
    List CBlockHeader → Prop
  | _, _, [] => True
  | height, prevNbits, header :: headers =>
    permittedDifficultyTransition params height prevNbits header.nBits = true ∧
      PermittedChain params (height + 1) header.nBits headers

/-- Over every run of the session the headers accepted in either phase make permitted transitions
only. -/
def BoundsDifficulty (cfg : SyncConfig) : Prop :=
  ∀ batches phase, phase ≠ .final →
    PermittedChain cfg.params (cfg.chainStart.nHeight + 1) cfg.chainStart.nBits
      (acceptedIn phase (run cfg (init cfg) batches))

variable {cfg : SyncConfig}

lemma acceptsTargets_mainParams (hparams : cfg.params = mainParams)
    (hheight : cfg.chainStart.nHeight + (accepted ++ headers).length ≤ auxpowDisabled) :
    cfg.AcceptsTargets accepted headers := by
  induction headers generalizing accepted with
  | nil => trivial
  | cons header headers ih =>
    refine ⟨?_, ih (by simpa using hheight)⟩
    have hearly : (cfg.tip accepted).nHeight + 1 ≤
        cfg.params.nAuxpowStartHeight + cfg.params.nPowAveragingWindow := by
      have hstart : cfg.params.nAuxpowStartHeight = auxpowDisabled := by rw [hparams]; rfl
      rw [cfg.tip_nHeight, hstart]
      simp only [length_append, length_cons] at hheight
      omega
    rw [acceptsTarget, checkWindowAwareRetarget, if_pos hearly, ite_self]

omit [Crypto] in
lemma permitted_mainParams_iff {height : Int} (hlow : height < auxpowDisabled)
    (hinterval : height.tmod 7200 ≠ 0) (oldNbits newNbits : UInt32) :
    permittedDifficultyTransition mainParams height oldNbits newNbits ↔ oldNbits = newNbits := by
  have hmin : mainParams.fPowAllowMinDifficultyBlocks = false := rfl
  have hpost : usePostAuxpowPowRules mainParams height = false := by
    rw [usePostAuxpowPowRules, decide_eq_false_iff_not, ge_iff_le, not_le]
    exact hlow
  have hlength : mainParams.difficultyAdjustmentInterval = 7200 := by decide
  rw [permittedDifficultyTransition, hmin, if_neg Bool.false_ne_true, hpost,
    if_neg Bool.false_ne_true, permittedLegacyTransition, hlength, if_neg hinterval,
    decide_eq_true_eq]

omit [Crypto] in
lemma not_permitted_everywhere {height : Int} (hlow : height + 2 < auxpowDisabled)
    {oldNbits nBits : UInt32}
    (hfirst : ∀ newNbits, permittedDifficultyTransition mainParams (height + 1) oldNbits newNbits)
    (hsecond : ∀ newNbits, permittedDifficultyTransition mainParams (height + 2) nBits newNbits) :
    False := by
  have hdiffer : ∀ target : UInt32, ∃ other, target ≠ other := fun target =>
    if hzero : target = 0 then ⟨1, by rw [hzero]; decide⟩ else ⟨0, hzero⟩
  by_cases hinterval : (height + 1).tmod 7200 = 0
  · have hnext : (height + 2).tmod 7200 ≠ 0 := by
      rw [← Int.dvd_iff_tmod_eq_zero] at hinterval
      rw [Ne, ← Int.dvd_iff_tmod_eq_zero]
      omega
    obtain ⟨other, hother⟩ := hdiffer nBits
    exact hother ((permitted_mainParams_iff hlow hnext _ _).1 (hsecond other))
  · obtain ⟨other, hother⟩ := hdiffer oldNbits
    exact hother ((permitted_mainParams_iff (by omega) hinterval _ _).1 (hfirst other))

omit [Crypto] in
/-- A header with a chosen target. -/
def headerOn (hashPrevBlock : Uint256) (nBits : UInt32) : CBlockHeader where
  nVersion := 0x20000000
  hashPrevBlock := hashPrevBlock
  hashMerkleRoot := 0
  nTime := 0
  nBits := nBits
  nNonce := 0
  auxpow := none

lemma call_init_mainParams (hparams : cfg.params = mainParams)
    (hlink : header.hashPrevBlock = cfg.chainStart.getBlockHeader.getHash)
    (hheight : cfg.chainStart.nHeight + (header :: headers).length ≤ auxpowDisabled)
    (hbits : (cfg.bits (header :: headers)).length ≤ cfg.maxCommitments) :
    acceptedIn .presync (run cfg (init cfg) [⟨header :: headers, true⟩]) = header :: headers ∧
      ((cfg.tip (header :: headers)).nChainWork ≥ cfg.minimumRequiredWork →
        runState cfg (init cfg) [⟨header :: headers, true⟩] =
          redownloadState cfg (header :: headers) [] 0 (cfg.bits (header :: headers))) := by
  have haccepts : cfg.AcceptsTargets [] (header :: headers) :=
    acceptsTargets_mainParams hparams hheight
  rcases processNextHeaders_presyncState cfg [] (Nat.zero_le _) (cons_ne_nil header headers)
    true with
    ⟨abort, state, -, -, hfit⟩ | ⟨-, -, hcall⟩
  · exact absurd (hfit hlink haccepts) (not_lt.2 hbits)
  · rw [presyncState_nil, nil_append, presyncResult, if_pos rfl] at hcall
    rw [run, run, runState, foldl_cons, foldl_nil]
    split_ifs at hcall with hwork <;> rw [call_of_processNextHeaders ⟨header :: headers,
      true⟩ hcall]
    · exact ⟨append_nil _, fun _ => rfl⟩
    · exact ⟨append_nil _, fun hreached => absurd hreached hwork⟩

variable {presync : List CBlockHeader}

/-- Once the first header of the second phase carries the minimum work, the rest of its batch is
accepted without a look at the commitments. -/
theorem acceptedIn_redownload_of_reached {batch : SyncBatch} {commitments : List Bool}
    (hfirst : runState cfg (init cfg) [batch] = redownloadState cfg presync [] 0 commitments)
    (hreached : cfg.workReached [header]) (headers : List CBlockHeader)
    (hlinked : Linked cfg.chainStart.phashBlock (header :: headers))
    (haccepts : cfg.AcceptsTargets [] (header :: headers)) :
    acceptedIn .redownload (run cfg (init cfg) [batch, ⟨header :: headers, true⟩]) =
      header :: headers := by
  have hburied : 0 = ([] : List CBlockHeader).length - redownloadBufferSize := by simp
  have hnil : Linked cfg.chainStart.phashBlock [] := trivial
  rcases processNextHeaders_redownloadState cfg presync commitments hburied hnil
      (cons_ne_nil header headers) true with
    ⟨abort, state, -, hreason⟩ | ⟨rest, -, -, -, hcall⟩
  · rcases hreason with ⟨-, hnot⟩ | ⟨-, hnot⟩ | ⟨-, taken, htaken, hunreached, hnot⟩
    · exact absurd hlinked hnot
    · exact absurd haccepts hnot
    · cases taken with
      | nil => exact absurd nil_prefix hnot
      | cons first taken =>
        rw [cons_prefix_cons] at htaken
        have hearlier : cfg.workReached [first] = false :=
          workReached_of_append (by simpa using hunreached)
        rw [htaken.1, hreached] at hearlier
        cases hearlier
  · have hsplit : [batch, ⟨header :: headers, true⟩] = [batch] ++ [⟨header :: headers, true⟩] := rfl
    have hbefore : acceptedIn .redownload (run cfg (init cfg) [batch]) = [] := by
      have hphase : (call cfg (init cfg) batch).before.downloadState = .presync := rfl
      rw [run, run, acceptedIn, flatMap_singleton, SyncStep.accepted, hphase, if_neg]
      rintro ⟨hsame, -⟩
      cases hsame
    rw [hsplit, run_concat, acceptedIn_concat, hbefore, hfirst,
      call_of_processNextHeaders ⟨header :: headers, true⟩ hcall]
    rfl

omit [Crypto] in
lemma not_commits_succ {height : Int} (hcommits : commits cfg height) :
    commits cfg (height + 1) = false := by
  have hperiod : (headerCommitmentPeriod : Int) = 632 := rfl
  rw [commits, decide_eq_true_eq, hperiod] at hcommits
  rw [commits, decide_eq_false_iff_not, hperiod]
  omega

lemma bits_length_of_first (cfg : SyncConfig) (header : CBlockHeader) :
    (cfg.bits [header]).length = if commits cfg (cfg.chainStart.nHeight + 1) then 1 else 0 := by
  rw [bits, commitmentBits, commitmentBits, append_nil]
  split <;> rfl

lemma bits_length_of_second (cfg : SyncConfig) (header header' : CBlockHeader) :
    (cfg.bits [header, header']).length = (if commits cfg (cfg.chainStart.nHeight + 1) then
      1 else 0) +
        if commits cfg (cfg.chainStart.nHeight + 2) then 1 else 0 := by
  have hheight : cfg.chainStart.nHeight + 2 = cfg.chainStart.nHeight + 1 + 1 := by ring
  rw [bits, commitmentBits, commitmentBits, commitmentBits, append_nil, length_append, hheight]
  congr 1
  · split <;> rfl
  · split <;> rfl

section

variable {cfg : SyncConfig} (hparams : cfg.params = mainParams)
  (hheight : cfg.chainStart.nHeight + 2 < auxpowDisabled) (hbounds : BoundsDifficulty cfg)
include hparams hheight hbounds

lemma permittedChain_of_room
    (hlink : header.hashPrevBlock = cfg.chainStart.getBlockHeader.getHash)
    (hcount : (header :: headers).length ≤ 2)
    (hbits : (cfg.bits (header :: headers)).length ≤ cfg.maxCommitments) :
    PermittedChain mainParams (cfg.chainStart.nHeight + 1) cfg.chainStart.nBits (header ::
      headers) := by
  have hcall := call_init_mainParams hparams hlink (by omega) hbits
  have hchain := hbounds [⟨header :: headers, true⟩] .presync (by decide)
  rwa [hcall.1, hparams] at hchain

variable (hroom : (cfg.bits [headerOn 0 0]).length ≤ cfg.maxCommitments)

include hroom in
lemma permitted_first (nBits : UInt32) :
    permittedDifficultyTransition mainParams (cfg.chainStart.nHeight + 1)
      cfg.chainStart.nBits nBits := by
  have hbits : (cfg.bits [headerOn cfg.chainStart.getBlockHeader.getHash nBits]).length ≤
      cfg.maxCommitments := by
    rwa [bits_length_of_first] at hroom ⊢
  exact (permittedChain_of_room hparams hheight hbounds rfl (by simp) hbits).1

lemma permitted_second (hroom : (cfg.bits [headerOn 0 0, headerOn 0 0]).length ≤
    cfg.maxCommitments) (nBits nBits' : UInt32) :
    permittedDifficultyTransition mainParams (cfg.chainStart.nHeight + 2) nBits nBits' := by
  have hbits : (cfg.bits [headerOn cfg.chainStart.getBlockHeader.getHash nBits,
      headerOn 0 nBits']).length ≤ cfg.maxCommitments := by
    rwa [bits_length_of_second] at hroom ⊢
  have hchain := permittedChain_of_room hparams hheight hbounds rfl (by simp) hbits
  have hsucc : cfg.chainStart.nHeight + 1 + 1 = cfg.chainStart.nHeight + 2 := by ring
  have hsecond := hchain.2.1
  rwa [hsucc] at hsecond

include hroom in
/-- If one header can carry the minimum work, a second one can be accepted in the second phase
without a commitment. -/
theorem permitted_after_work {nBits : UInt32}
    (hwork : cfg.chainStart.nChainWork + getBlockProof nBits ≥ cfg.minimumRequiredWork)
    (nBits' : UInt32) :
    permittedDifficultyTransition mainParams (cfg.chainStart.nHeight + 2) nBits nBits' := by
  have hbits : (cfg.bits [headerOn cfg.chainStart.getBlockHeader.getHash nBits]).length ≤
      cfg.maxCommitments := by
    rwa [bits_length_of_first] at hroom ⊢
  have hfirst := (call_init_mainParams hparams rfl (by rw [length_singleton]; omega) hbits).2 hwork
  have hreached : cfg.workReached [headerOn cfg.chainStart.phashBlock nBits] := by
    rw [workReached, reached, Bool.or_eq_true]
    exact .inl (decide_eq_true hwork)
  have haccepts : cfg.AcceptsTargets [] [headerOn cfg.chainStart.phashBlock nBits,
      headerOn (headerOn cfg.chainStart.phashBlock nBits).getHash nBits'] :=
    acceptsTargets_mainParams hparams hheight.le
  have hsecond := acceptedIn_redownload_of_reached hfirst hreached
    [headerOn (headerOn cfg.chainStart.phashBlock nBits).getHash nBits'] ⟨rfl, rfl, trivial⟩
    haccepts
  have hchain := hbounds [⟨[headerOn cfg.chainStart.getBlockHeader.getHash nBits], true⟩,
    ⟨[headerOn cfg.chainStart.phashBlock nBits,
      headerOn (headerOn cfg.chainStart.phashBlock nBits).getHash nBits'], true⟩] .redownload
    (by decide)
  rw [hsecond, hparams] at hchain
  have hsucc : cfg.chainStart.nHeight + 1 + 1 = cfg.chainStart.nHeight + 2 := by ring
  have hlast := hchain.2.1
  rwa [hsucc] at hlast

end

/-- A session that keeps no commitment accepts at most one header in its first phase, and none if
the height of that header asks for a commitment. -/
theorem presync_of_no_commitments (hbits : (cfg.bits presync).length ≤ 0) :
    (commits cfg (cfg.chainStart.nHeight + 1) → presync = []) ∧
      (commits cfg (cfg.chainStart.nHeight + 2) → presync = [] ∨ ∃ header, presync = [header]) := by
  have hheight : cfg.chainStart.nHeight + 2 = cfg.chainStart.nHeight + 1 + 1 := by ring
  cases presync with
  | nil => exact ⟨fun _ => rfl, fun _ => .inl rfl⟩
  | cons header headers =>
    rw [bits, commitmentBits, length_append] at hbits
    constructor
    · intro hcommits
      rw [if_pos hcommits, length_singleton] at hbits
      omega
    · intro hcommits
      cases headers with
      | nil => exact .inr ⟨header, rfl⟩
      | cons next headers =>
        rw [hheight] at hcommits
        rw [commitmentBits, length_append, if_pos hcommits, length_singleton] at hbits
        omega

/-- The sessions that keep no commitment and can accept nothing but one free target: the second
phase is never entered. -/
theorem permittedChain_of_few (hnone : cfg.maxCommitments = 0)
    (hfew : commits cfg (cfg.chainStart.nHeight + 1) ∨ commits cfg (cfg.chainStart.nHeight + 2) =
      true ∧ (∀ nBits, permittedDifficultyTransition mainParams (cfg.chainStart.nHeight + 1)
        cfg.chainStart.nBits nBits) ∧ ∀ nBits, ¬cfg.chainStart.nChainWork +
          getBlockProof nBits ≥ cfg.minimumRequiredWork)
    (hhistory : History cfg presync accepted) :
    PermittedChain mainParams (cfg.chainStart.nHeight + 1) cfg.chainStart.nBits presync ∧
      accepted = [] := by
  have hbits := hhistory.presyncBits
  rw [hnone] at hbits
  obtain ⟨hempty, hsingle⟩ := presync_of_no_commitments hbits
  have hpresync : presync = [] ∨ ∃ header, presync = [header] ∧
      permittedDifficultyTransition mainParams (cfg.chainStart.nHeight + 1)
        cfg.chainStart.nBits header.nBits ∧
      ¬(cfg.tip presync).nChainWork ≥ cfg.minimumRequiredWork := by
    rcases hfew with hcommits | ⟨hcommits, hfree, hwork⟩
    · exact .inl (hempty hcommits)
    · rcases hsingle hcommits with hnil | ⟨header, rfl⟩
      · exact .inl hnil
      · exact .inr ⟨header, rfl, hfree header.nBits, hwork header.nBits⟩
  by_cases haccepted : accepted = []
  · refine ⟨?_, haccepted⟩
    rcases hpresync with rfl | ⟨header, rfl, hpermitted, -⟩
    · trivial
    · exact ⟨hpermitted, trivial⟩
  · obtain ⟨hne, henough⟩ := hhistory.enough haccepted
    rcases hpresync with hnil | ⟨header, -, -, hwork⟩
    · exact absurd hnil hne
    · exact absurd henough hwork

/-- What the low-work header sync bounds on the main network. Every session accepts a header whose
target the retarget rule does not permit, unless it may keep no commitment at all and the offset
lets it accept no header, or a single one whose target is free and which cannot carry the work. -/
theorem boundsDifficulty_mainParams_iff {cfg : SyncConfig} (hparams : cfg.params = mainParams)
    (hheight : cfg.chainStart.nHeight + 2 < auxpowDisabled) :
    BoundsDifficulty cfg ↔ cfg.maxCommitments = 0 ∧
      (commits cfg (cfg.chainStart.nHeight + 1) = true ∨
        commits cfg (cfg.chainStart.nHeight + 2) = true ∧
          (∀ nBits, permittedDifficultyTransition mainParams (cfg.chainStart.nHeight + 1)
            cfg.chainStart.nBits nBits = true) ∧
          ∀ nBits, ¬cfg.chainStart.nChainWork + getBlockProof nBits ≥ cfg.minimumRequiredWork) := by
  constructor
  · intro hbounds
    have hsecond : ¬(cfg.bits [headerOn 0 0, headerOn 0 0]).length ≤ cfg.maxCommitments := by
      intro hroom
      have hroom' : (cfg.bits [headerOn 0 0]).length ≤ cfg.maxCommitments := by
        rw [bits_length_of_first]
        rw [bits_length_of_second] at hroom
        omega
      exact not_permitted_everywhere hheight (permitted_first hparams hheight hbounds hroom')
        (permitted_second hparams hheight hbounds hroom 0)
    rw [bits_length_of_second] at hsecond
    cases hcommits : commits cfg (cfg.chainStart.nHeight + 1) with
    | true =>
      have hsucc : commits cfg (cfg.chainStart.nHeight + 2) = false := by
        have hnext := not_commits_succ hcommits
        rwa [add_assoc] at hnext
      rw [hcommits, hsucc] at hsecond
      simp only [if_true, Bool.false_eq_true, if_false] at hsecond
      exact ⟨by omega, .inl rfl⟩
    | false =>
      have hroom : (cfg.bits [headerOn 0 0]).length ≤ cfg.maxCommitments := by
        rw [bits_length_of_first, hcommits]
        exact Nat.zero_le _
      have hfirst := permitted_first hparams hheight hbounds hroom
      cases hcommits' : commits cfg (cfg.chainStart.nHeight + 2) with
      | false =>
        rw [hcommits, hcommits'] at hsecond
        exact absurd (Nat.zero_le _) hsecond
      | true =>
        rw [hcommits, hcommits'] at hsecond
        simp only [if_true, Bool.false_eq_true, if_false] at hsecond
        refine ⟨by omega, .inr ⟨rfl, hfirst, fun nBits hwork => ?_⟩⟩
        exact not_permitted_everywhere hheight hfirst
          (permitted_after_work hparams hheight hbounds hroom hwork)
  · rintro ⟨hnone, hfew⟩ batches phase hphase
    obtain ⟨released, hsession, -⟩ := sessionAt_run cfg batches
    obtain ⟨hpresync, haccepted⟩ := permittedChain_of_few hnone hfew hsession.history
    rw [hparams]
    cases phase with
    | presync => exact hpresync
    | redownload =>
      rw [haccepted]
      trivial
    | final => exact absurd rfl hphase

omit [Crypto]

/-- Thirty entries of the main network between two retarget heights. -/
def lowWorkChain : CBlockIndex where
  phashBlock := 0xcd78b6f7a42a9348cde2fce10fe5a666311894a15d67bbd319b5ccc9580ce85
  nHeight := 100029
  nChainWork := 0x100000
  nVersion := 0x20000000
  hashMerkleRoot := 0
  nTime := 1700001740
  nBits := 0x1e01ffff
  nNonce := 0
  ancestors := (List.range 29).map fun i : Nat => ⟨BitVec.ofNat 256 (2 + i), 100028 - i,
    BitVec.ofNat 256 (0x100000 - 2 * i), 0x20000000, 0, 1700001680 - 60 * UInt32.ofNat i,
    0x1e01ffff, 0⟩

/-- A session on top of `lowWorkChain` that asks for the minimum chain work of the main network. -/
def lowWorkConfig : SyncConfig where
  params := mainParams
  chainStart := lowWorkChain
  minimumRequiredWork := uintToArith256 mainParams.nMinimumChainWork
  commitOffset := ⟨0, by decide⟩
  hasher _ := 0
  maxCommitments := 1000

/-- A single header that claims more than the minimum chain work. -/
def inflatedBatch : SyncBatch := ⟨[headerOn lowWorkChain.phashBlock 0x1900ffff], true⟩

/-- The header is accepted in both phases and released, and its target is not permitted. -/
theorem inflatedBatch_accepted :
    let steps := @run .digits lowWorkConfig (init lowWorkConfig) [inflatedBatch, inflatedBatch]
    acceptedIn .presync steps = inflatedBatch.headers ∧
      acceptedIn .redownload steps = inflatedBatch.headers ∧
      releasedBy steps = inflatedBatch.headers ∧
      permittedDifficultyTransition mainParams (lowWorkChain.nHeight + 1) lowWorkChain.nBits
        0x1900ffff = false := by
  decide +kernel

theorem not_boundsDifficulty_lowWorkConfig :
    lowWorkConfig.params = mainParams ∧ lowWorkConfig.chainStart.nHeight + 2 < auxpowDisabled ∧
      ¬@BoundsDifficulty Crypto.digits lowWorkConfig := by
  refine ⟨rfl, by decide, fun hbounds => ?_⟩
  have hnone := ((@boundsDifficulty_mainParams_iff .digits lowWorkConfig rfl
    (by decide)).1 hbounds).1
  exact absurd hnone (by decide)

end HeadersSyncState

end Tidecoin
