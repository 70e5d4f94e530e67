import Tidecoin.Lib.Window
import Tidecoin.Pow

/-!
The retarget buffers of the header sync (`headerssync.cpp`). While headers stream in, three bounded
queues hold the targets of the averaging window, the median times of the window and of the entry
before it, and the last eleven times. Each queue is the newest part of a history of headers, so
what the buffers hold is a function of the chain that was streamed and not of how it was cut.
-/

namespace Tidecoin

open Lib ArithUint256 List

variable {pindexLast : CBlockIndex}

/-- What the difficulty rules read of an entry or header. -/
structure RetargetSample where
  nBits : UInt32
  nTime : UInt32
deriving DecidableEq, Repr

def RetargetSample.time (sample : RetargetSample) : Int := sample.nTime.toNat

def IndexEntry.sample (entry : IndexEntry) : RetargetSample := ⟨entry.nBits, entry.nTime⟩

def CPureBlockHeader.sample (header : CPureBlockHeader) : RetargetSample :=
  ⟨header.nBits, header.nTime⟩

lemma map_sample_time (entries : List IndexEntry) :
    (entries.map IndexEntry.sample).map RetargetSample.time =
      entries.map IndexEntry.getBlockTime := by
  rw [map_map]
  rfl

/-- The members `m_recent_nbits`, `m_recent_mtp` and `m_last11_times`, oldest element first. -/
structure RetargetBuffers where
  recentNbits : List UInt32
  recentMtp : List Int
  last11Times : List Int
deriving DecidableEq, Repr

namespace RetargetBuffers

/-- The three queues after `clear()`. -/
def empty : RetargetBuffers := ⟨[], [], []⟩

/-- `ComputeMtpForNewTime`: the median as of the new time, and the queue of times with it. -/
def computeMtpForNewTime (buffers : RetargetBuffers) (newTime : Int) : Int × RetargetBuffers :=
  let times := buffers.last11Times ++ [newTime]
  let times := if times.length > medianTimeSpan then times.tail else times
  (medianTime times, { buffers with last11Times := times })

section

variable (params : Params)

def pushRetargetSample (buffers : RetargetBuffers) (nbits : UInt32) (mtp : Int) : RetargetBuffers :=
  { buffers with
    recentNbits := pushBounded params.nPowAveragingWindow buffers.recentNbits nbits
    recentMtp := pushBounded (params.nPowAveragingWindow + 1) buffers.recentMtp mtp }

/-- The two calls every accepted header makes. -/
def pushHeader (buffers : RetargetBuffers) (sample : RetargetSample) : RetargetBuffers :=
  let (mtp, buffers) := buffers.computeMtpForNewTime sample.time
  buffers.pushRetargetSample params sample.nBits mtp

/-- `ResetRetargetBuffersToChainStart`: the window, the entry before it and eleven more are pushed
from the oldest on. -/
def resetToChainStart (chainStart : CBlockIndex) : RetargetBuffers :=
  let history := (chainStart.chain.take (params.nPowAveragingWindow + 1 + medianTimeSpan)).reverse
  history.foldl (fun buffers entry => buffers.pushHeader params entry.sample) empty

/-- The buffers that belong to a history of samples, newest first. -/
def ofHistory (history : List RetargetSample) : RetargetBuffers where
  recentNbits := recent params.nPowAveragingWindow (history.map RetargetSample.nBits)
  recentMtp := recent (params.nPowAveragingWindow + 1)
    (windowMap medianTimeSpan medianTime (history.map RetargetSample.time))
  last11Times := recent medianTimeSpan (history.map RetargetSample.time)

end

variable (params : Params) (history : List RetargetSample) (sample : RetargetSample)

@[simp] lemma ofHistory_nil : ofHistory params [] = empty := by
  simp [ofHistory, empty, windowMap]

lemma tail_eq_trimFront {times : List Int} (hlen : times.length ≤ medianTimeSpan + 1) :
    (if times.length > medianTimeSpan then times.tail else times) =
      trimFront medianTimeSpan times := by
  rw [trimFront]
  split
  case isTrue hlong =>
    have hone : times.length - medianTimeSpan = 1 := by omega
    rw [hone, drop_one]
  case isFalse hshort =>
    have hzero : times.length - medianTimeSpan = 0 := by omega
    rw [hzero, drop_zero]

lemma computeMtpForNewTime_ofHistory : (ofHistory params history).computeMtpForNewTime sample.time =
      (medianTime (((sample :: history).map RetargetSample.time).take medianTimeSpan),
        { ofHistory params history with
          last11Times :=
            recent medianTimeSpan ((sample :: history).map RetargetSample.time) }) := by
  have hlen : ((ofHistory params history).last11Times ++ [sample.time]).length ≤
      medianTimeSpan + 1 := by simp [ofHistory]
  have htimes : trimFront medianTimeSpan ((ofHistory params history).last11Times ++ [sample.time]) =
      recent medianTimeSpan ((sample :: history).map RetargetSample.time) := by
    rw [← pushBounded, ofHistory, pushBounded_recent, map_cons]
  rw [computeMtpForNewTime, tail_eq_trimFront hlen, htimes, recent, medianTime_reverse]

lemma pushHeader_ofHistory :
    (ofHistory params history).pushHeader params sample = ofHistory params (sample :: history) := by
  rw [pushHeader, computeMtpForNewTime_ofHistory]
  simp [pushRetargetSample, ofHistory, pushBounded_recent, windowMap]

lemma foldl_pushHeader_reverse (entries : List IndexEntry) :
    entries.reverse.foldl (fun buffers entry => buffers.pushHeader params entry.sample) empty =
      ofHistory params (entries.map IndexEntry.sample) := by
  induction entries with
  | nil => simp
  | cons entry entries ih =>
    rw [reverse_cons, foldl_append, ih, foldl_cons, foldl_nil, pushHeader_ofHistory, map_cons]

lemma resetToChainStart_eq (chainStart : CBlockIndex) :
    resetToChainStart params chainStart =
      ofHistory params (chainStart.chain.map IndexEntry.sample) := by
  rw [resetToChainStart, foldl_pushHeader_reverse]
  simp only [ofHistory, map_take, RetargetBuffers.mk.injEq]
  refine ⟨recent_take (by omega) _, ?_, recent_take (by omega) _⟩
  rw [recent, recent, windowMap_take (by omega)]

end RetargetBuffers

/-- The local copy of the per-block rule; its body is that of `CalculateNextWorkRequiredNew`. -/
def calculateNextWorkRequiredNewLocal (bnAvg : ArithUint256) (nLastBlockTime nFirstBlockTime : Int)
    (params : Params) : UInt32 :=
  calculateNextWorkRequiredNew bnAvg nLastBlockTime nFirstBlockTime params

/-- The target recomputed from the buffers, as a compact encoding. -/
def RetargetBuffers.expectedNbits (params : Params) (buffers : RetargetBuffers) : UInt32 :=
  let bnTot := buffers.recentNbits.foldl (fun bnTot nbits => bnTot + setCompact nbits) 0
  let bnAvg := bnTot / BitVec.ofNat 256 (params.nPowAveragingWindow % 2 ^ 32)
  calculateNextWorkRequiredNewLocal bnAvg (buffers.recentMtp.getLastD 0)
    (buffers.recentMtp.headD 0) params

/-- `CheckWindowAwareRetarget`. Nothing is checked until the buffers are full, nor up to the end of
the first window after the start of merged mining. -/
def checkWindowAwareRetarget (params : Params) (buffers : RetargetBuffers)
    (prevNbits nextNbits : UInt32) (nextTime prevTime nextHeight : Int) : Bool :=
  let win := params.nPowAveragingWindow
  if buffers.recentNbits.length < win ∨ buffers.recentMtp.length < win + 1 then true
  else if nextHeight ≤ params.nAuxpowStartHeight + win then true
  else if minDifficultyAfterHeight params (nextHeight - 1) nextTime prevTime then
    nextNbits = getCompact (uintToArith256 params.powLimit)
  else
    let expTarget := setCompact (buffers.expectedNbits params)
    let obsTarget := setCompact nextNbits
    let minT : ArithUint256 := if expTarget > 4 then expTarget - 4 else 0
    let maxT : ArithUint256 := expTarget + 4
    if obsTarget < minT ∨ obsTarget > maxT then
      permittedDifficultyTransition params nextHeight prevNbits nextNbits
    else true

lemma sumTargets_eq_sum (window : Nat) (chain : List IndexEntry) :
    sumTargets window chain = ((chain.take window).map fun entry =>
      setCompact entry.nBits).sum := by
  rw [sumTargets, ← foldl_map, sum_eq_foldl]

/-- The buffers of a chain recompute the target its next block must have, once the chain is longer
than the window. -/
theorem RetargetBuffers.expectedNbits_ofHistory {params : Params}
    {first : IndexEntry} {ancestors : List IndexEntry}
    (hdrop : pindexLast.chain.drop params.nPowAveragingWindow = first :: ancestors) :
    (ofHistory params (pindexLast.chain.map IndexEntry.sample)).expectedNbits params =
      calculateNextWorkRequiredNew
        (sumTargets params.nPowAveragingWindow pindexLast.chain / ofInt64
          params.nPowAveragingWindow)
        pindexLast.getMedianTimePast (CBlockIndex.getMedianTimePast ⟨first, ancestors⟩) params := by
  have hlong : params.nPowAveragingWindow < pindexLast.chain.length := by
    by_contra hshort
    rw [drop_eq_nil_of_le (by omega)] at hdrop
    cases hdrop
  have hsum : (recent params.nPowAveragingWindow
      ((pindexLast.chain.map IndexEntry.sample).map RetargetSample.nBits)).foldl
        (fun bnTot nbits => bnTot + setCompact nbits) 0 =
      sumTargets params.nPowAveragingWindow pindexLast.chain := by
    rw [sumTargets_eq_sum, ← foldl_map, ← sum_eq_foldl, recent, map_reverse, sum_reverse]
    simp [Function.comp_def, IndexEntry.sample]
  have hlast : (recent (params.nPowAveragingWindow + 1) (windowMap medianTimeSpan medianTime
      (pindexLast.chain.map IndexEntry.getBlockTime))).getLast? =
      some pindexLast.getMedianTimePast := by
    rw [recent_getLast? (by omega)]
    rfl
  have hfirst : (recent (params.nPowAveragingWindow + 1) (windowMap medianTimeSpan medianTime
      (pindexLast.chain.map IndexEntry.getBlockTime))).head? =
      some (CBlockIndex.getMedianTimePast ⟨first, ancestors⟩) := by
    rw [recent_head? (by simpa using Nat.succ_le_of_lt hlong),
      windowMap_getElem? _ _ _ _ (by simpa using hlong),
      ← map_drop, hdrop]
    rfl
  have hwindow : BitVec.ofNat 256 (params.nPowAveragingWindow % 2 ^ 32) =
      ofInt64 params.nPowAveragingWindow := by
    have hfits := params.windowFitsInt
    have hcast : ((params.nPowAveragingWindow : Int) % 2 ^ 64).toNat =
        params.nPowAveragingWindow := by omega
    rw [ofInt64, hcast, Nat.mod_eq_of_lt (by omega)]
  simp only [expectedNbits, ofHistory, hsum, map_sample_time, hwindow,
    calculateNextWorkRequiredNewLocal,
    getLastD_eq_getLast?, headD_eq_head?_getD, hlast, hfirst, Option.getD_some]

lemma setCompact_within_slack (nbits : UInt32) :
    ¬(setCompact nbits < (if setCompact nbits > 4 then setCompact nbits - 4 else 0) ∨
      setCompact nbits > setCompact nbits + 4) := by
  have hroom := setCompact_toNat_add_lt nbits
  rw [not_or]
  constructor
  · split <;> bv_omega
  · bv_omega

/-- A header that carries the target its predecessor demands passes the check, whatever the
previous target is taken to be. -/
theorem checkWindowAwareRetarget_of_required {params : Params}
    {header : CBlockHeader} (prevNbits : UInt32)
    (hrequired : getNextWorkRequired pindexLast header params = some header.nBits) :
    checkWindowAwareRetarget params
      (RetargetBuffers.ofHistory params (pindexLast.chain.map IndexEntry.sample)) prevNbits
      header.nBits header.getBlockTime pindexLast.getBlockTime (pindexLast.nHeight + 1) := by
  simp only [checkWindowAwareRetarget]
  split
  case isTrue => rfl
  case isFalse hfull =>
    split
    case isTrue => rfl
    case isFalse hlate =>
      have hpost : usePostAuxpowPowRules params (pindexLast.nHeight + 1) := by
        rw [usePostAuxpowPowRules, decide_eq_true_eq]
        omega
      rw [getNextWorkRequired, if_pos hpost, Option.some_inj, getNextWorkRequiredNew] at hrequired
      rw [add_sub_cancel_right]
      cases hno : params.fPowNoRetargeting with
      | true =>
        -- Without retargeting every transition is permitted, so the slack does not matter.
        obtain ⟨hallow, hafter⟩ := params.minDifficultyOfNoRetargeting hno
        simp [minDifficultyAfterHeight, hafter, permittedDifficultyTransition, hallow]
      | false =>
        rw [hno, if_neg nofun] at hrequired
        split
        case isTrue hmin =>
          rw [if_pos hmin] at hrequired
          exact decide_eq_true hrequired.symm
        case isFalse hmin =>
          rw [if_neg hmin] at hrequired
          cases hdrop : pindexLast.chain.drop params.nPowAveragingWindow with
          | nil =>
            rw [drop_eq_nil_iff] at hdrop
            simp only [RetargetBuffers.ofHistory, recent_length, windowMap_length, length_map]
              at hfull
            omega
          | cons first ancestors =>
            rw [hdrop] at hrequired
            have hexpected := RetargetBuffers.expectedNbits_ofHistory hdrop
            rw [hexpected.trans hrequired]
            exact if_neg (setCompact_within_slack header.nBits)

end Tidecoin
