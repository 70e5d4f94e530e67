import Tidecoin.HeadersSync.Difficulty

/-!
What the two-phase download gives its caller. Released headers are, in order, the first headers of
the second download with their predecessor hashes rebuilt, and each of them is buried or lies on a
chain with enough work. A peer that serves the same chain twice gets it released: the commitments
of the first pass fit the second one however the two are cut into messages.
-/

namespace Tidecoin

open Lib List SyncBatch

namespace SyncConfig

variable [Crypto]

omit [Crypto] in
/-- The work of the chain start and of the given headers, added without wrapping. -/
def chainWork (cfg : SyncConfig) (headers : List CBlockHeader) : Nat :=
  cfg.chainStart.nChainWork.toNat + (headers.map fun header =>
    (getBlockProof header.nBits).toNat).sum

variable {cfg : SyncConfig} {headers : List CBlockHeader}

lemma minimumRequiredWork_le_of_reached {pindex : CBlockIndex}
    (hreached : cfg.reached pindex headers) :
    cfg.minimumRequiredWork.toNat ≤ pindex.nChainWork.toNat +
      (headers.map fun header => (getBlockProof header.nBits).toNat).sum := by
  induction headers generalizing pindex with
  | nil => cases hreached
  | cons header headers ih =>
    have hwrap : (pindex.extend header).nChainWork.toNat ≤
        pindex.nChainWork.toNat + (getBlockProof header.nBits).toNat := by
      exact Nat.mod_le _ _
    rw [reached, Bool.or_eq_true, decide_eq_true_eq, ge_iff_le, BitVec.le_def] at hreached
    rw [map_cons, sum_cons]
    rcases hreached with hnow | hlater
    · omega
    · have hrest := ih hlater
      omega

lemma workReached_of_tip (hne : headers ≠ [])
    (hwork : (cfg.tip headers).nChainWork ≥ cfg.minimumRequiredWork) : cfg.workReached headers := by
  rcases headers.eq_nil_or_concat with hnil | ⟨init, header, rfl⟩
  · exact absurd hnil hne
  · rw [concat_eq_append] at hwork ⊢
    rw [workReached_concat, Bool.or_eq_true, decide_eq_true_eq]
    exact .inr hwork

lemma prefix_of_unreached {served more : List CBlockHeader} (hserved : served <+: headers ++ more)
    (hunreached : cfg.workReached served = false) (hreached : cfg.workReached headers) :
    served <+: headers := by
  rcases prefix_or_prefix_of_prefix hserved (prefix_append headers more) with
    hinitial | ⟨rest, hrest⟩
  · exact hinitial
  · rw [← hrest] at hunreached
    rw [workReached_of_append hunreached] at hreached
    cases hreached

end SyncConfig

namespace HeadersSyncState

variable [Crypto]

/-- Over every list of batches the released headers are a prefix of the headers accepted in the
second phase, without their proofs; the start height reported with the next batch is that of its
first released header; and every released header is followed by a full buffer of accepted ones,
unless the accepted chain has the minimum work. -/
theorem released_prefix_of_accepted (cfg : SyncConfig) (batches : List SyncBatch)
    (next : SyncBatch) :
    let steps := run cfg (init cfg) batches
    let result := (call cfg (runState cfg (init cfg) batches) next).result
    releasedBy steps <+: (acceptedIn .redownload steps).map .withoutAuxpow ∧
      (releasedBy steps).map (fun header => header.getHash) <+:
        (acceptedIn .redownload steps).map (fun header => header.getHash) ∧
      (result.powValidatedHeaders ≠ [] → result.checkedStartHeight =
        some (cfg.chainStart.nHeight + 1 + (releasedBy steps).length)) ∧
      (releasedBy steps = [] ∨
        (releasedBy steps).length + redownloadBufferSize ≤ (acceptedIn .redownload steps).length ∨
        cfg.minimumRequiredWork.toNat ≤ cfg.chainWork (acceptedIn .redownload steps)) := by
  intro steps result
  obtain ⟨released, hsession, houtput⟩ := sessionAt_run cfg batches
  obtain ⟨count, hspec⟩ := hsession.callSpec next
  have hlength : (releasedBy steps).length = released := by
    rw [houtput, length_map, length_take, Nat.min_eq_left hsession.released_le]
  have hinitial : releasedBy steps <+:
      (acceptedIn .redownload steps).map .withoutAuxpow := by
    rw [houtput]
    exact (List.take_prefix _ _).map _
  refine ⟨hinitial, ?_, ?_, ?_⟩
  · have hhashes := hinitial.map fun header : CBlockHeader => header.getHash
    rwa [map_map] at hhashes
  · rw [hlength]
    exact hspec.height
  · rw [← length_eq_zero_iff, hlength]
    exact hsession.released_justified.imp_right
      (Or.imp_right SyncConfig.minimumRequiredWork_le_of_reached)

/-- Whatever a peer sends, a session that has not ended holds a bounded number of commitments,
buffered headers and retarget samples. -/
theorem memory_bounded (cfg : SyncConfig) (batches : List SyncBatch) :
    let state := runState cfg (init cfg) batches
    state.downloadState = .final ∨ state.headerCommitments.length ≤ cfg.maxCommitments ∧
      state.redownloadedHeaders.length ≤ redownloadBufferSize ∧
      state.retargetBuffers.recentNbits.length ≤ cfg.params.nPowAveragingWindow ∧
      state.retargetBuffers.recentMtp.length ≤ cfg.params.nPowAveragingWindow + 1 ∧
      state.retargetBuffers.last11Times.length ≤ medianTimeSpan := by
  obtain ⟨released, hsession, -⟩ := sessionAt_run cfg batches
  generalize acceptedIn .presync _ = presync, acceptedIn .redownload _ = accepted,
    runState cfg (init cfg) batches = state at *
  cases hsession with
  | final _ hphase => exact .inl hphase
  | presync hhistory =>
    refine .inr ⟨hhistory.presyncBits, Nat.zero_le _, ?_⟩
    simp [presyncState, SyncConfig.buffers, RetargetBuffers.ofHistory]
  | redownload hhistory _ _ hburied hqueue =>
    have hbits := hhistory.presyncBits
    rw [hqueue, length_append] at hbits
    refine .inr ⟨Nat.le_of_add_left_le hbits, ?_, ?_⟩
    · simp only [redownloadState, length_map, length_drop]
      omega
    · simp [redownloadState, SyncConfig.buffers, RetargetBuffers.ofHistory]

/-- No header is released before the peer has shown a chain with the minimum work. -/
theorem released_after_work (cfg : SyncConfig) (batches : List SyncBatch) :
    let steps := run cfg (init cfg) batches
    releasedBy steps = [] ∨
      (cfg.tip (acceptedIn .presync steps)).nChainWork ≥ cfg.minimumRequiredWork := by
  intro steps
  obtain ⟨released, hsession, houtput⟩ := sessionAt_run cfg batches
  refine or_iff_not_imp_left.2 fun hreleased => (hsession.history.enough fun hnone =>
    hreleased ?_).2
  rw [houtput, hnone, take_nil, map_nil]

/-- What a session in its second phase does with batches that carry on with a chain the first phase
has seen, or go beyond it: the first `taken` batches are accepted, the last of them reaches the work
and ends the session, and all that was buffered or served until then has been released. -/
structure Redownloads (cfg : SyncConfig) (state : HeadersSyncState)
    (batches : List SyncBatch) (pending : List CBlockHeader) (taken : List SyncBatch) : Prop where
  takenPrefix : taken <+: batches
  success : ∀ step ∈ run cfg state taken, step.result.success = true
  noAbort : ∀ step ∈ run cfg state batches, step.result.abort = none
  final : (runState cfg state taken).downloadState = .final
  ended : (runState cfg state batches).downloadState = .final
  output : releasedBy (run cfg state batches) =
    (pending ++ taken.flatMap SyncBatch.headers).map CBlockHeader.withoutAuxpow

lemma redownloads_of_final (cfg : SyncConfig) {state : HeadersSyncState}
    (hfinal : state.downloadState = .final) (batches : List SyncBatch) :
    Redownloads cfg state batches [] [] := by
  have hidle : runState cfg state batches = state ∧
      ∀ step ∈ run cfg state batches, step.result = .default := by
    induction batches with
    | nil => exact ⟨rfl, fun _ hmem => absurd hmem not_mem_nil⟩
    | cons batch batches ih =>
      rw [runState, foldl_cons, run, call_of_idle (.inr hfinal)]
      refine ⟨ih.1, fun step hmem => ?_⟩
      rcases mem_cons.1 hmem with rfl | hmem
      · rfl
      · exact ih.2 step hmem
  refine ⟨⟨_, rfl⟩, fun _ hmem => absurd hmem not_mem_nil, ?_, hfinal, ?_, ?_⟩
  · intro step hmem
    rw [hidle.2 step hmem]
    rfl
  · rw [hidle.1]
    exact hfinal
  · refine flatMap_eq_nil_iff.2 fun step hmem => ?_
    rw [hidle.2 step hmem]
    rfl

variable {cfg : SyncConfig}

lemma Redownloads.cons {state after : HeadersSyncState} {batch : SyncBatch}
    {result : ProcessingResult} {pending left : List CBlockHeader} {batches taken : List SyncBatch}
    (hcall : call cfg state batch = ⟨state, batch, result, after⟩) (hsuccess : result.success)
    (habort : result.abort = none) {released : List CBlockHeader}
    (houtput : result.powValidatedHeaders = released.map CBlockHeader.withoutAuxpow)
    (hsplit : released ++ left = pending ++ batch.headers)
    (hrest : Redownloads cfg after batches left taken) :
    Redownloads cfg state (batch :: batches) pending (batch :: taken) := by
  have hrun : ∀ batches, run cfg state (batch :: batches) = ⟨state, batch, result, after⟩ ::
      run cfg after batches := by
    intro batches
    rw [run, hcall]
  have hstate : ∀ batches, runState cfg state (batch :: batches) = runState cfg after batches := by
    intro batches
    rw [runState, foldl_cons, hcall]
    rfl
  refine ⟨cons_prefix_cons.2 ⟨rfl, hrest.takenPrefix⟩, ?_, ?_, ?_, ?_, ?_⟩
  · intro step hmem
    rw [hrun, mem_cons] at hmem
    rcases hmem with rfl | hmem
    · exact hsuccess
    · exact hrest.success step hmem
  · intro step hmem
    rw [hrun, mem_cons] at hmem
    rcases hmem with rfl | hmem
    · exact habort
    · exact hrest.noAbort step hmem
  · rw [hstate]
    exact hrest.final
  · rw [hstate]
    exact hrest.ended
  · rw [hrun, releasedBy, flatMap_cons, houtput, flatMap_cons, ← append_assoc,
      ← hsplit, append_assoc, map_append]
    exact congrArg _ hrest.output

section

variable {commitments : List Bool} {accepted : List CBlockHeader} {released : Nat}

variable (presync : List CBlockHeader) (hburied : released = accepted.length - redownloadBufferSize)
include hburied

/-- A batch that links, carries accepted targets and agrees with the stored commitments as long as
they are compared is accepted. -/
theorem processNextHeaders_of_served {headers : List CBlockHeader}
    (hlinked : Linked cfg.chainStart.phashBlock (accepted ++ headers))
    (haccepts : cfg.AcceptsTargets accepted headers)
    (hqueue : ∀ served, served <+: headers → cfg.workReached (accepted ++ served) = false →
      cfg.commitmentBits ((cfg.tip accepted).nHeight + 1) served <+: commitments)
    (hheaders : headers ≠ []) (full : Bool) :
    ∃ rest, (cfg.workReached (accepted ++ headers) = false → commitments =
        cfg.commitmentBits ((cfg.tip accepted).nHeight + 1) headers ++ rest) ∧
      processNextHeaders cfg (redownloadState cfg presync accepted released commitments)
        headers full =
        redownloadResult cfg presync accepted released rest headers full := by
  have hlinks := linked_append.1 hlinked
  rw [← cfg.tip_phashBlock] at hlinks
  rcases processNextHeaders_redownloadState cfg presync commitments hburied hlinks.1 hheaders full
    with ⟨abort, state, -, hreason⟩ | ⟨rest, -, -, hrest, hcall⟩
  · rcases hreason with ⟨-, hnot⟩ | ⟨-, hnot⟩ | ⟨-, served, hserved, hunreached, hnot⟩
    · exact absurd hlinks.2 hnot
    · exact absurd haccepts hnot
    · exact absurd (hqueue served hserved hunreached) hnot
  · exact ⟨rest, hrest, hcall⟩

lemma redownloads_of_served {batches : List SyncBatch}
    (hlinked : Linked cfg.chainStart.phashBlock (accepted ++ batches.flatMap headers))
    (haccepts : cfg.AcceptsTargets accepted (batches.flatMap headers))
    (hunreached : cfg.workReached accepted = false)
    (hreached : cfg.workReached (accepted ++ batches.flatMap headers))
    (hqueue : ∀ served, served <+: batches.flatMap headers → cfg.workReached (accepted ++ served) =
      false → cfg.commitmentBits ((cfg.tip accepted).nHeight + 1) served <+: commitments)
    (hnonempty : ∀ batch ∈ batches, batch.headers ≠ [])
    (hfull : ∀ batch ∈ batches.dropLast, batch.full) :
    ∃ taken, Redownloads cfg (redownloadState cfg presync accepted released commitments) batches
        (accepted.drop released) taken ∧ cfg.workReached (accepted ++ taken.flatMap headers) := by
  induction batches generalizing commitments accepted released with
  | nil =>
    rw [flatMap_nil, append_nil, hunreached] at hreached
    cases hreached
  | cons batch batches ih =>
    have hle : released ≤ accepted.length := by omega
    rw [flatMap_cons] at hlinked haccepts hreached hqueue
    rw [← append_assoc] at hlinked hreached
    obtain ⟨haccept, haccepts⟩ := SyncConfig.acceptsTargets_append.1 haccepts
    obtain ⟨rest, hrest, hcall⟩ := processNextHeaders_of_served presync hburied
      (linked_append.1 hlinked).1 haccept
      (fun served hserved => hqueue served (hserved.trans (prefix_append _ _)))
      (hnonempty batch (mem_cons_self ..)) batch.full
    have hcall := call_of_processNextHeaders batch hcall
    cases hnow : cfg.workReached (accepted ++ batch.headers) with
    | true =>
      -- The batch reaches the work: everything is released and the session ends.
      rw [hnow] at hcall
      refine ⟨[batch], .cons hcall rfl rfl rfl ?_ (redownloads_of_final cfg rfl _), ?_⟩
      · rw [append_nil, releasable, if_pos rfl, ← length_drop, take_length,
          drop_append_of_le_length hle]
      · rwa [flatMap_singleton]
    | false =>
      -- Otherwise another batch follows, so this one is flagged full.
      have hmore : batches ≠ [] := by
        rintro rfl
        rw [flatMap_nil, append_nil, hnow] at hreached
        cases hreached
      have hflag : batch.full := by
        apply hfull batch
        rw [dropLast_cons_of_ne_nil hmore]
        exact mem_cons_self ..
      have hqueue' : ∀ served, served <+: batches.flatMap headers →
          cfg.workReached (accepted ++ batch.headers ++ served) = false →
          cfg.commitmentBits ((cfg.tip (accepted ++ batch.headers)).nHeight + 1) served <+:
            rest := by
        intro served hserved hlow
        have hinitial := hqueue (batch.headers ++ served)
          ((prefix_append_right_inj _).2 hserved) (by rwa [← append_assoc])
        have hheight : (cfg.tip accepted).nHeight + 1 + batch.headers.length =
            (cfg.tip (accepted ++ batch.headers)).nHeight + 1 := by
          rw [cfg.tip_nHeight, cfg.tip_nHeight, length_append]
          push_cast
          ring
        rwa [hrest hnow, cfg.commitmentBits_append, prefix_append_right_inj, hheight] at hinitial
      have hburied' := released_add_releasable hburied batch.headers
      obtain ⟨taken, hrun, htaken⟩ := ih hburied' hlinked haccepts hnow hreached hqueue'
        (forall_mem_cons.1 hnonempty).2
        (fun later hmem => hfull later (by
          rw [dropLast_cons_of_ne_nil hmore]
          exact mem_cons_of_mem _ hmem))
      simp only [hnow, hflag, Bool.not_false, Bool.and_self, if_true] at hcall
      have hsplit : ∀ count, ((accepted ++ batch.headers).drop released).take count ++
          (accepted ++ batch.headers).drop (released + count) =
          accepted.drop released ++ batch.headers := by
        intro count
        rw [← drop_drop, take_append_drop, drop_append_of_le_length hle]
      refine ⟨batch :: taken, .cons hcall rfl rfl (by dsimp only) (hsplit _) hrun, ?_⟩
      rw [flatMap_cons, ← append_assoc]
      exact htaken

end

/-- A peer that serves again the chain its session accepted in the first phase, followed by any
headers with the targets consensus demands and cut into batches in any way, gets it released. All
batches up to the one that reaches the minimum work are accepted, exactly their headers are
released, once each and in order, and the session ends. -/
theorem redownloads_presynced_chain {cfg : SyncConfig} {first second : List SyncBatch}
    {extension : List CBlockHeader}
    (hstarted : (runState cfg (init cfg) first).downloadState = .redownload)
    (hfresh : acceptedIn .redownload (run cfg (init cfg) first) = [])
    (hserved : second.flatMap SyncBatch.headers =
      acceptedIn .presync (run cfg (init cfg) first) ++ extension)
    (hlinked : Linked cfg.chainStart.phashBlock (second.flatMap SyncBatch.headers))
    (hrequired : RequiredWork cfg.params
      (cfg.tip (acceptedIn .presync (run cfg (init cfg) first))) extension)
    (hnonempty : ∀ batch ∈ second, batch.headers ≠ [])
    (hfull : ∀ batch ∈ second.dropLast, batch.full = true) :
    ∃ taken, Redownloads cfg (runState cfg (init cfg) first) second [] taken ∧
      cfg.workReached (taken.flatMap SyncBatch.headers) = true := by
  obtain ⟨released, hsession, -⟩ := sessionAt_run cfg first
  rw [hfresh] at hsession
  generalize acceptedIn .presync (run cfg (init cfg) first) = presync at *
  generalize runState cfg (init cfg) first = state at *
  cases hsession with
  | presync => cases hstarted
  | final _ hphase =>
    rw [hphase] at hstarted
    cases hstarted
  | redownload hhistory henough hunreached hburied hcommitments =>
    have hreached := SyncConfig.workReached_of_tip henough.1 henough.2
    obtain rfl : released = 0 := by simpa using hburied
    refine redownloads_of_served presync hburied hlinked ?_ hunreached ?_ ?_ hnonempty hfull
    · rw [hserved]
      exact SyncConfig.acceptsTargets_append.2
        ⟨hhistory.presyncTargets, acceptsTargets_of_requiredWork hrequired⟩
    · rw [hserved]
      refine Bool.eq_true_of_not_eq_false fun hlow => ?_
      rw [nil_append] at hlow
      rw [SyncConfig.workReached_of_append hlow] at hreached
      cases hreached
    · -- Commitments are compared only inside the chain they were made for.
      intro served hinitial hlow
      rw [hserved] at hinitial
      obtain ⟨rest, rfl⟩ := SyncConfig.prefix_of_unreached hinitial hlow hreached
      rw [SyncConfig.bits_append] at hcommitments
      exact ⟨_, hcommitments⟩

omit [Crypto]

/-- The header of `inflatedBatch` again, with a successor that keeps the target, as consensus
demands. -/
def extendedBatch : SyncBatch where
  headers := inflatedBatch.headers ++
    [headerOn (@CPureBlockHeader.getHash Crypto.digits
      (headerOn lowWorkChain.phashBlock 0x1900ffff).toCPureBlockHeader) 0x1900ffff]
  full := false

/-- The session, with a commitment to the first header. -/
def committingConfig : SyncConfig :=
  { lowWorkConfig with
    commitOffset := ⟨(lowWorkChain.nHeight + 1).toNat % headerCommitmentPeriod,
      Nat.mod_lt _ headerCommitmentPeriod_pos⟩
    hasher := fun hash => UInt64.ofNat hash.toNat }

theorem redownloads_presynced_chain_extended :
    let presynced := @runState Crypto.digits committingConfig (init committingConfig)
      [inflatedBatch]
    presynced.headerCommitments.length = 1 ∧
      ∃ taken, @Redownloads Crypto.digits committingConfig presynced [extendedBatch] [] taken ∧
        @SyncConfig.workReached Crypto.digits committingConfig (taken.flatMap SyncBatch.headers) =
          true := by
  refine ⟨by decide +kernel, ?_⟩
  have hserved : @acceptedIn .presync (@run .digits committingConfig (init committingConfig)
      [inflatedBatch]) = inflatedBatch.headers := by
    decide +kernel
  refine @redownloads_presynced_chain .digits committingConfig [inflatedBatch] [extendedBatch]
    [headerOn (@CPureBlockHeader.getHash .digits
      (headerOn lowWorkChain.phashBlock 0x1900ffff).toCPureBlockHeader) 0x1900ffff]
    (by decide +kernel) (by decide +kernel) ?_ ⟨rfl, rfl, trivial⟩ ?_ ?_ ?_
  · rw [hserved]
    rfl
  · exact ⟨by decide +kernel, trivial⟩
  · intro batch hmem
    rw [mem_singleton.1 hmem]
    exact cons_ne_nil _ _
  · intro batch hmem
    exact absurd hmem not_mem_nil

end HeadersSyncState

end Tidecoin
