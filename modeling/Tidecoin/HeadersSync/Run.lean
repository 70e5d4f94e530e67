import Tidecoin.HeadersSync.Session

/-!
Runs of a header sync session over any list of batches. One theorem for each phase says what a
call of `ProcessNextHeaders` can do; `SessionAt` is the invariant that relates the state of a
session to the headers it accepted and released so far, and it holds after every run.
-/

namespace Tidecoin

open Lib List

namespace HeadersSyncState

variable [Crypto]

variable (cfg : SyncConfig) (presync : List CBlockHeader)

/-- What a batch that is taken in the first phase leads to. -/
def presyncResult (accepted : List CBlockHeader) (full : Bool) :
    ProcessingResult × HeadersSyncState :=
  if (cfg.tip accepted).nChainWork ≥ cfg.minimumRequiredWork then
    ({ ProcessingResult.default with success := true, requestMore := true },
      redownloadState cfg accepted [] 0 (cfg.bits accepted))
  else if full then
    ({ ProcessingResult.default with success := true, requestMore := true },
      presyncState cfg accepted)
  else ({ ProcessingResult.default with success := true }, (presyncState cfg accepted).finalize)

lemma processNextHeaders_presyncState (hkept : (cfg.bits presync).length ≤ cfg.maxCommitments)
    {headers : List CBlockHeader} (hheaders : headers ≠ []) (full : Bool) :
    (∃ abort state, processNextHeaders cfg (presyncState cfg presync) headers full =
        ({ ProcessingResult.default with abort := some abort }, finalize state) ∧
        (abort = .invalidDifficultyTransition → ¬cfg.AcceptsTargets presync headers) ∧
        ((headers.head hheaders).hashPrevBlock = (cfg.lastHeader presync).getHash →
          cfg.AcceptsTargets presync headers →
          cfg.maxCommitments < (cfg.bits (presync ++ headers)).length)) ∨
      cfg.AcceptsTargets presync headers ∧ (cfg.bits (presync ++ headers)).length ≤
        cfg.maxCommitments ∧
      processNextHeaders cfg (presyncState cfg presync) headers full =
        presyncResult cfg (presync ++ headers) full := by
  obtain ⟨header, headers, rfl⟩ := exists_cons_of_ne_nil hheaders
  have hphase : (presyncState cfg presync).downloadState = .presync := rfl
  have hlast : (presyncState cfg presync).lastHeaderReceived = cfg.lastHeader presync := rfl
  simp only [processNextHeaders, isEmpty_cons, Bool.false_eq_true, if_false, hphase,
    processPresync, validateAndStoreHeadersCommitments, hlast, head_cons]
  by_cases hlink : header.hashPrevBlock = (cfg.lastHeader presync).getHash
  case neg =>
    refine .inl ⟨.nonContinuous, presyncState cfg presync, ?_, nofun, fun hlinked =>
      absurd hlinked hlink⟩
    simp [hlink, finishBatch, ProcessingResult.default]
  rcases forEachHeader_presyncState hkept (header :: headers) with
    ⟨hrun, haccepts, hbits⟩ | ⟨state, abort, hrun, hdiff, hfit⟩
  · refine .inr ⟨haccepts, hbits, ?_⟩
    simp only [hrun, hlink, startRedownload_presyncState, presyncResult]
    by_cases hwork : (cfg.tip (presync ++ header :: headers)).nChainWork ≥ cfg.minimumRequiredWork
    · simp [hwork, finishBatch, redownloadState]
    · cases full with
      | true => simp [hwork, finishBatch]
      | false => simp [hwork, finishBatch, ProcessingResult.default, presyncState, init]
  · refine .inl ⟨abort, state, ?_, hdiff, fun _ => hfit⟩
    simp [hrun, hlink, finishBatch, ProcessingResult.default]

/-- What a batch that is taken in the second phase leads to: the headers it releases and the session
with `rest` of the commitments. -/
def redownloadResult (cfg : SyncConfig) (presync accepted : List CBlockHeader) (released : Nat)
    (rest : List Bool) (headers : List CBlockHeader) (full : Bool) :
    ProcessingResult × HeadersSyncState :=
  let count :=
    releasable (cfg.workReached (accepted ++ headers)) ((accepted ++ headers).length - released)
  let output := (((accepted ++ headers).drop released).take count).map CBlockHeader.withoutAuxpow
  let goOn := !cfg.workReached (accepted ++ headers) && full
  let after := redownloadState cfg presync (accepted ++ headers) (released + count) rest
  ({ powValidatedHeaders := output
     checkedStartHeight :=
       if output.isEmpty then none else some (cfg.chainStart.nHeight + 1 + released)
     success := true
     requestMore := goOn
     abort := none },
    if goOn then after else after.finalize)

/-- A batch handed to a session in its second phase that has not reached the work yet and has
released what it could. -/
theorem processNextHeaders_redownloadState
    (commitments : List Bool) {accepted : List CBlockHeader} {released : Nat}
    (hreleased : released = accepted.length - redownloadBufferSize)
    (hlinked : Linked cfg.chainStart.phashBlock accepted) {headers : List CBlockHeader}
    (hheaders : headers ≠ []) (full : Bool) : (∃ abort state, processNextHeaders cfg
        (redownloadState cfg presync accepted released commitments) headers full =
        ({ ProcessingResult.default with abort := some abort }, finalize state) ∧
        RefusedFor cfg commitments accepted headers abort) ∨
      ∃ rest, Linked cfg.chainStart.phashBlock (accepted ++ headers) ∧
        cfg.AcceptsTargets accepted headers ∧
        (cfg.workReached (accepted ++ headers) = false → commitments =
          cfg.commitmentBits ((cfg.tip accepted).nHeight + 1) headers ++ rest) ∧
        processNextHeaders cfg (redownloadState cfg presync accepted released commitments)
          headers full =
          redownloadResult cfg presync accepted released rest headers full := by
  have hle : released ≤ accepted.length := by omega
  have hbuffered : accepted = [] ∨ released < accepted.length := by
    rcases accepted.eq_nil_or_concat with hnil | ⟨init, header, hconcat⟩
    · exact .inl hnil
    · rw [hreleased, hconcat, length_concat, redownloadBufferSize]
      omega
  have hphase : (redownloadState cfg presync accepted released commitments).downloadState =
      .redownload := rfl
  have hempty : headers.isEmpty = false := by
    cases headers with
    | nil => exact absurd rfl hheaders
    | cons => rfl
  simp only [processNextHeaders, hempty, Bool.false_eq_true, if_false, hphase, processRedownload]
  rcases forEachHeader_redownloadState cfg presync commitments hbuffered hle headers with
    ⟨rest, hrun, hlinks, haccepts, hqueue⟩ | ⟨state, abort, hrun, hreason⟩
  · have hall : Linked cfg.chainStart.phashBlock (accepted ++ headers) := by
      rw [linked_append, ← cfg.tip_phashBlock]
      exact ⟨hlinked, hlinks⟩
    have hfirst : (redownloadState cfg presync (accepted ++ headers) released
        rest).redownloadBufferLastHeight -
        ((redownloadState cfg presync (accepted ++ headers) released
          rest).redownloadedHeaders.length : Nat) + 1 = cfg.chainStart.nHeight + 1 + released := by
      simp only [redownloadState, cfg.tip_nHeight, length_map, length_drop, length_append]
      omega
    have hcomplete : ∀ count, count = releasable (cfg.workReached (accepted ++ headers))
        ((accepted ++ headers).length - released) →
        ((redownloadState cfg presync (accepted ++ headers) (released + count)
          rest).redownloadedHeaders.isEmpty && cfg.workReached (accepted ++ headers)) =
          cfg.workReached (accepted ++ headers) := by
      intro count hcount
      cases hreached : cfg.workReached (accepted ++ headers) with
      | false => rw [Bool.and_false]
      | true =>
        rw [hreached, releasable, if_pos rfl] at hcount
        have hdrop : (accepted ++ headers).length ≤ released + count := by
          omega
        rw [redownloadState, drop_eq_nil_of_le hdrop]
        rfl
    refine .inr ⟨rest, hall, haccepts, hqueue, ?_⟩
    simp only [hrun, hfirst, popHeadersReadyForAcceptance_redownloadState hall]
    have hprocess : ∀ count, (redownloadState cfg presync (accepted ++ headers) count
        rest).processAllRemainingHeaders = cfg.workReached (accepted ++ headers) := fun _ => rfl
    simp only [hprocess, hcomplete _ rfl, finishBatch, Bool.true_and, redownloadResult]
    split <;> rfl
  · refine .inl ⟨abort, state, ?_, hreason⟩
    simp [hrun, finishBatch, ProcessingResult.default]

end HeadersSyncState

/-- One call of `ProcessNextHeaders`: the headers and whether the message was full. -/
structure SyncBatch where
  headers : List CBlockHeader
  full : Bool
deriving DecidableEq, Repr

/-- A call in a run, with the states around it and its result. -/
structure SyncStep where
  before : HeadersSyncState
  batch : SyncBatch
  result : ProcessingResult
  after : HeadersSyncState
deriving DecidableEq, Repr

namespace SyncStep

/-- The headers the call accepted in the given phase. -/
def accepted (phase : SyncPhase) (step : SyncStep) : List CBlockHeader :=
  if step.before.downloadState = phase ∧ step.result.success = true then step.batch.headers else []

end SyncStep

/-- The headers accepted in a phase over the calls of a run. -/
def acceptedIn (phase : SyncPhase) (steps : List SyncStep) : List CBlockHeader :=
  steps.flatMap (SyncStep.accepted phase)

lemma acceptedIn_concat (phase : SyncPhase) (steps : List SyncStep) (step : SyncStep) :
    acceptedIn phase (steps ++ [step]) = acceptedIn phase steps ++ step.accepted phase := by
  rw [acceptedIn, flatMap_append, flatMap_singleton]
  rfl

/-- The headers released over the calls of a run. -/
def releasedBy (steps : List SyncStep) : List CBlockHeader :=
  steps.flatMap fun step => step.result.powValidatedHeaders

lemma releasedBy_concat (steps : List SyncStep) (step : SyncStep) :
    releasedBy (steps ++ [step]) = releasedBy steps ++ step.result.powValidatedHeaders := by
  rw [releasedBy, flatMap_append, flatMap_singleton]
  rfl

namespace HeadersSyncState

variable [Crypto]

/-- The call on a batch. -/
def call (cfg : SyncConfig) (state : HeadersSyncState) (batch : SyncBatch) : SyncStep :=
  let (result, after) := processNextHeaders cfg state batch.headers batch.full
  ⟨state, batch, result, after⟩

/-- The calls a session makes on a list of batches. -/
def run (cfg : SyncConfig) : HeadersSyncState → List SyncBatch → List SyncStep
  | _, [] => []
  | state, batch :: batches => call cfg state batch :: run cfg (call cfg state batch).after batches

/-- The state after a list of batches. -/
def runState (cfg : SyncConfig) (state : HeadersSyncState) (batches : List SyncBatch) :
    HeadersSyncState :=
  batches.foldl (fun state batch => (call cfg state batch).after) state

variable (cfg : SyncConfig) (state : HeadersSyncState) (batches : List SyncBatch)
  (batch : SyncBatch)

lemma run_concat : run cfg state (batches ++ [batch]) =
      run cfg state batches ++ [call cfg (runState cfg state batches) batch] := by
  induction batches generalizing state with
  | nil => rfl
  | cons first batches ih =>
    simp only [cons_append, run, ih]
    rfl

lemma runState_concat :
    runState cfg state (batches ++ [batch]) =
      (call cfg (runState cfg state batches) batch).after := by
  rw [runState, foldl_concat]
  rfl

/-- What every session knows of the headers it accepted in its two phases. The second phase is only
entered after a non-empty first one with enough work. -/
structure History (cfg : SyncConfig) (presync accepted : List CBlockHeader) : Prop where
  presyncTargets : cfg.AcceptsTargets [] presync
  presyncBits : (cfg.bits presync).length ≤ cfg.maxCommitments
  targets : cfg.AcceptsTargets [] accepted
  linked : Linked cfg.chainStart.phashBlock accepted
  enough : accepted ≠ [] → presync ≠ [] ∧ (cfg.tip presync).nChainWork ≥ cfg.minimumRequiredWork

/-- The state of a session in relation to its history: the headers accepted in the first phase,
those accepted in the second phase, and how many of these were released. -/
inductive SessionAt (cfg : SyncConfig) :
    (presync accepted : List CBlockHeader) → (released : Nat) → HeadersSyncState → Prop
  | presync {presync : List CBlockHeader} (history : History cfg presync []) :
      SessionAt cfg presync [] 0 (presyncState cfg presync)
  | redownload {presync accepted : List CBlockHeader} {released : Nat} {commitments : List Bool}
      (history : History cfg presync accepted)
      (enough : presync ≠ [] ∧ (cfg.tip presync).nChainWork ≥ cfg.minimumRequiredWork)
      (unreached : cfg.workReached accepted = false)
      (buried : released = accepted.length - redownloadBufferSize)
      (queue : cfg.bits presync = cfg.bits accepted ++ commitments) :
      SessionAt cfg presync accepted released (redownloadState cfg presync accepted released
        commitments)
  | final {presync accepted : List CBlockHeader} {released : Nat} {state : HeadersSyncState}
      (history : History cfg presync accepted) (phase : state.downloadState = .final)
      (fits : released ≤ accepted.length)
      (justified : released = 0 ∨ released + redownloadBufferSize ≤ accepted.length ∨
        cfg.workReached accepted = true) :
      SessionAt cfg presync accepted released state

lemma history_nil : History cfg [] [] :=
  ⟨trivial, Nat.zero_le _, trivial, trivial, fun hne => absurd rfl hne⟩

lemma sessionAt_init : SessionAt cfg [] [] 0 (init cfg) := by
  rw [← presyncState_nil]
  exact .presync (history_nil cfg)

/-- What a call says about the session it is made on. -/
structure CallSpec (cfg : SyncConfig) (presync accepted : List CBlockHeader) (released : Nat)
    (step : SyncStep) (count : Nat) : Prop where
  session : SessionAt cfg (presync ++ step.accepted .presync) (accepted ++
    step.accepted .redownload)
    (released + count) step.after
  output : step.result.powValidatedHeaders =
    (((accepted ++ step.accepted .redownload).drop released).take count).map
      CBlockHeader.withoutAuxpow
  fits : released + count ≤ (accepted ++ step.accepted .redownload).length
  height : step.result.powValidatedHeaders ≠ [] →
    step.result.checkedStartHeight = some (cfg.chainStart.nHeight + 1 + released)
  difficulty : step.result.abort = some .invalidDifficultyTransition →
    (step.before.downloadState = .presync ∧ ¬cfg.AcceptsTargets presync step.batch.headers) ∨
      (step.before.downloadState = .redownload ∧ ¬cfg.AcceptsTargets accepted step.batch.headers)

variable {cfg : SyncConfig} {presync accepted : List CBlockHeader} {released : Nat}

lemma callSpec_idle {step : SyncStep} (hfails : step.result.success = false)
    (hsession : SessionAt cfg presync accepted released step.after)
    (hle : released ≤ accepted.length)
    (houtput : step.result.powValidatedHeaders = [])
    (hdifficulty : step.result.abort = some .invalidDifficultyTransition →
      (step.before.downloadState = .presync ∧ ¬cfg.AcceptsTargets presync step.batch.headers) ∨
        (step.before.downloadState = .redownload ∧
          ¬cfg.AcceptsTargets accepted step.batch.headers)) :
    CallSpec cfg presync accepted released step 0 := by
  have hnone : ∀ phase, step.accepted phase = [] := by
    intro phase
    rw [SyncStep.accepted, if_neg]
    rintro ⟨-, hsuccess⟩
    rw [hfails] at hsuccess
    cases hsuccess
  refine ⟨?_, ?_, ?_, ?_, hdifficulty⟩
  · rw [hnone, hnone, append_nil, append_nil]
    exact hsession
  · rw [houtput, take_zero, map_nil]
  · rw [hnone, append_nil]
    exact hle
  · intro hnonempty
    exact absurd houtput hnonempty

omit [Crypto] in
lemma released_add_releasable (hburied : released = accepted.length - redownloadBufferSize)
    (headers : List CBlockHeader) :
    released + releasable false ((accepted ++ headers).length - released) =
      (accepted ++ headers).length - redownloadBufferSize := by
  rw [releasable, if_neg Bool.false_ne_true, length_append]
  omega

variable {state : HeadersSyncState}

section

variable (hsession : SessionAt cfg presync accepted released state)
include hsession

lemma SessionAt.released_le : released ≤ accepted.length := by
  cases hsession with
  | presync => exact Nat.zero_le _
  | redownload _ _ _ hburied => omega
  | final _ _ hfits => exact hfits

lemma SessionAt.released_justified :
    released = 0 ∨ released + redownloadBufferSize ≤ accepted.length ∨
      cfg.workReached accepted := by
  cases hsession with
  | presync => exact .inl rfl
  | redownload _ _ _ hburied => omega
  | final _ _ _ hjustified => exact hjustified

lemma SessionAt.history : History cfg presync accepted := by
  cases hsession with
  | presync hhistory => exact hhistory
  | redownload hhistory => exact hhistory
  | final hhistory => exact hhistory

end

lemma call_of_processNextHeaders {after : HeadersSyncState} {result : ProcessingResult}
    (hcall : processNextHeaders cfg state batch.headers batch.full = (result, after)) :
    call cfg state batch = ⟨state, batch, result, after⟩ := by
  rw [call, hcall]

lemma call_of_idle {batch : SyncBatch} (hidle : batch.headers = [] ∨ state.downloadState = .final) :
    call cfg state batch = ⟨state, batch, ProcessingResult.default, state⟩ := by
  apply call_of_processNextHeaders batch
  rw [processNextHeaders]
  split
  · rfl
  · next hbatch =>
      rcases hidle with hempty | hphase
      · exact absurd (isEmpty_iff.2 hempty) hbatch
      · rw [hphase]

lemma callSpec_presync (hhistory : History cfg presync []) (batch : SyncBatch)
    (hbatch : batch.headers ≠ []) :
    CallSpec cfg presync [] 0 (call cfg (presyncState cfg presync) batch) 0 := by
  rcases processNextHeaders_presyncState cfg presync hhistory.presyncBits hbatch batch.full with
    ⟨abort, state, hcall, hdifficulty, -⟩ | ⟨hheader, hbits, hcall⟩
  · rw [call_of_processNextHeaders batch hcall]
    exact callSpec_idle rfl (.final hhistory rfl (Nat.zero_le _) (.inl rfl)) (Nat.zero_le _) rfl
      fun habort => .inl ⟨rfl, hdifficulty (Option.some_inj.1 habort)⟩
  · have hlonger : History cfg (presync ++ batch.headers) [] :=
      ⟨SyncConfig.acceptsTargets_append.2 ⟨hhistory.presyncTargets, hheader⟩, hbits, trivial,
        trivial, fun hne => absurd rfl hne⟩
    have hspec : ∀ result after, result.success → result.powValidatedHeaders = [] →
        result.abort = none → SessionAt cfg (presync ++ batch.headers) [] 0 after →
        CallSpec cfg presync [] 0 ⟨presyncState cfg presync, batch, result, after⟩ 0 := by
      intro result after hsuccess houtput habort hafter
      have hfirst : SyncStep.accepted .presync ⟨presyncState cfg presync, batch, result, after⟩ =
          batch.headers := if_pos ⟨rfl, hsuccess⟩
      have hsecond : SyncStep.accepted .redownload
          ⟨presyncState cfg presync, batch, result, after⟩ = [] :=
            if_neg fun hphase => nomatch hphase.1
      refine ⟨?_, ?_, Nat.zero_le _, fun hne => absurd houtput hne, fun hsome => ?_⟩
      · rw [hfirst, hsecond]
        exact hafter
      · rw [houtput, take_zero, map_nil]
      · rw [habort] at hsome
        cases hsome
    rw [presyncResult] at hcall
    split_ifs at hcall with hwork <;> rw [call_of_processNextHeaders batch hcall]
    · have hne : presync ++ batch.headers ≠ [] := append_ne_nil_of_right_ne_nil _ hbatch
      exact hspec _ _ rfl rfl rfl (.redownload hlonger ⟨hne, hwork⟩ rfl rfl rfl)
    · exact hspec _ _ rfl rfl rfl (.presync hlonger)
    · exact hspec _ _ rfl rfl rfl (.final hlonger rfl (Nat.zero_le _) (.inl rfl))

lemma callSpec_redownload {commitments : List Bool} (hhistory : History cfg presync accepted)
    (henough : presync ≠ [] ∧ (cfg.tip presync).nChainWork ≥ cfg.minimumRequiredWork)
    (hburied : released = accepted.length - redownloadBufferSize)
    (hqueue : cfg.bits presync = cfg.bits accepted ++ commitments) (batch : SyncBatch)
    (hbatch : batch.headers ≠ []) : ∃ count, CallSpec cfg presync accepted released
      (call cfg (redownloadState cfg presync accepted released commitments) batch) count := by
  rcases processNextHeaders_redownloadState cfg presync commitments hburied hhistory.linked hbatch
      batch.full with
    ⟨abort, state, hcall, hreason⟩ | ⟨rest, hall, hheaders, hrest, hcall⟩
  · rw [call_of_processNextHeaders batch hcall]
    refine ⟨0, callSpec_idle rfl (.final hhistory rfl (by omega) (by omega))
      (by omega) rfl fun habort => .inr ⟨rfl, ?_⟩⟩
    cases Option.some_inj.1 habort
    rcases hreason with ⟨habort, -⟩ | ⟨-, hnot⟩ | ⟨habort | habort, -⟩
    · cases habort
    · exact hnot
    · cases habort
    · cases habort
  · have hlonger : History cfg presync (accepted ++ batch.headers) :=
      ⟨hhistory.presyncTargets, hhistory.presyncBits,
        SyncConfig.acceptsTargets_append.2 ⟨hhistory.targets, hheaders⟩, hall, fun _ => henough⟩
    rw [call_of_processNextHeaders batch hcall]
    have hfirst : ∀ result after, SyncStep.accepted .presync
        ⟨redownloadState cfg presync accepted released commitments, batch, result, after⟩ = [] :=
      fun result after => if_neg fun hphase => by cases hphase.1
    have hsecond : ∀ result after, result.success → SyncStep.accepted .redownload
        ⟨redownloadState cfg presync accepted released commitments, batch, result, after⟩ =
          batch.headers :=
      fun result after hsuccess => if_pos ⟨rfl, hsuccess⟩
    refine ⟨releasable (cfg.workReached (accepted ++ batch.headers))
      ((accepted ++ batch.headers).length - released), ?_, ?_, ?_, ?_, ?_⟩
    · rw [hfirst, hsecond _ _ rfl, append_nil]
      cases hreached : cfg.workReached (accepted ++ batch.headers) with
      | true =>
        refine .final hlonger rfl ?_ (.inr (.inr hreached))
        rw [releasable, if_pos rfl, length_append]
        omega
      | false =>
        have hcount := released_add_releasable hburied batch.headers
        cases hfull : batch.full with
        | true =>
          refine .redownload hlonger henough hreached hcount ?_
          rw [hqueue, hrest hreached, cfg.bits_append, append_assoc]
        | false => exact .final hlonger rfl (by omega) (by omega)
    · rw [hsecond _ _ rfl]
    · rw [hsecond _ _ rfl, releasable, length_append]
      split <;> omega
    · intro hnonempty
      exact if_neg fun hempty => hnonempty (isEmpty_iff.1 hempty)
    · intro habort
      cases habort

lemma SessionAt.callSpec (hsession : SessionAt cfg presync accepted released state)
    (batch : SyncBatch) :
    ∃ count, CallSpec cfg presync accepted released (call cfg state batch) count := by
  have hle := hsession.released_le
  by_cases hbatch : batch.headers = []
  · rw [call_of_idle (.inl hbatch)]
    exact ⟨0, callSpec_idle rfl hsession hle rfl fun habort => nomatch habort⟩
  · cases hsession with
    | presync hhistory => exact ⟨0, callSpec_presync hhistory batch hbatch⟩
    | redownload hhistory henough hunreached hburied hqueue =>
      exact callSpec_redownload hhistory henough hburied hqueue batch hbatch
    | final hhistory hphase hfits hjustified =>
      rw [call_of_idle (.inr hphase)]
      exact ⟨0, callSpec_idle rfl (.final hhistory hphase hfits hjustified) hle rfl
        fun habort => nomatch habort⟩

lemma sessionAt_run (cfg : SyncConfig) (batches : List SyncBatch) :
    ∃ released, SessionAt cfg (acceptedIn .presync (run cfg (init cfg) batches))
        (acceptedIn .redownload (run cfg (init cfg) batches)) released
        (runState cfg (init cfg) batches) ∧ releasedBy (run cfg (init cfg) batches) =
        ((acceptedIn .redownload (run cfg (init cfg) batches)).take released).map
          CBlockHeader.withoutAuxpow := by
  induction batches using reverseRecOn with
  | nil => exact ⟨0, sessionAt_init cfg, rfl⟩
  | append_singleton batches batch ih =>
    obtain ⟨released, hsession, houtput⟩ := ih
    obtain ⟨count, hspec⟩ := hsession.callSpec batch
    refine ⟨released + count, ?_, ?_⟩
    · rw [run_concat, runState_concat, acceptedIn_concat, acceptedIn_concat]
      exact hspec.session
    · rw [run_concat, releasedBy_concat, acceptedIn_concat, hspec.output, houtput, take_add,
        take_append_of_le_length hsession.released_le, map_append]

end HeadersSyncState

end Tidecoin
