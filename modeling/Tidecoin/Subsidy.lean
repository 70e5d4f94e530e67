import Tidecoin.Params
import Mathlib.Algebra.BigOperators.Intervals
import Mathlib.Algebra.Order.BigOperators.Group.Finset
import Mathlib.Data.Int.ConditionallyCompleteOrder
import Mathlib.Tactic.NormNum

/-!
The block subsidy of `validation.cpp`. The reward is quartered at the end of every era, and an era
lasts twice as long as the one before it, so the reward of a height is determined by the era it
falls in and the coins issued up to a height are a sum over the eras below it.
-/

namespace Tidecoin

open Finset

variable {height : Int} {halvings : Nat}

/-- `COIN`, the number of satoshis in one coin. -/
def coin : Int := 100000000

def maxMoney : Int := 21000000 * coin

def moneyRange (nValue : Int) : Bool := 0 ≤ nValue && nValue ≤ maxMoney

lemma moneyRange_iff {nValue : Int} : moneyRange nValue ↔ 0 ≤ nValue ∧ nValue ≤ maxMoney := by
  simp [moneyRange]

/-- The loop of `GetBlockSubsidy`, with its remaining iterations and its three variables. -/
def halvingsLoop (height : Int) :
    (iterations : Nat) → (high interval : Int) → (halvings : Nat) → Nat
  | 0, _, _, halvings => halvings
  | iterations + 1, high, interval, halvings =>
    if height ≥ high + interval then
      halvingsLoop height iterations (high + interval) (interval * 2) (halvings + 1)
    else halvings

def getBlockSubsidy (nHeight : Int) (params : Params) : Int :=
  let halvings := halvingsLoop nHeight 65 0 params.nSubsidyHalvingInterval 0
  if halvings * 2 ≥ 64 then 0 else (40 * coin) >>> (halvings * 2)

/-- The coins the first `count` blocks of a chain may issue. -/
def issued (params : Params) (count : Nat) : Int :=
  ∑ height ∈ Finset.range count, getBlockSubsidy height params

/-- First height of the era with the given number of halvings. -/
def eraStart (interval : Int) (halvings : Nat) : Int := interval * (2 ^ halvings - 1)

lemma eraStart_succ (interval : Int) (halvings : Nat) :
    eraStart interval (halvings + 1) = eraStart interval halvings + interval * 2 ^ halvings := by
  rw [eraStart, eraStart]
  ring

lemma eraStart_mono {interval : Int} (hinterval : 0 < interval) : Monotone (eraStart interval) := by
  refine monotone_nat_of_le_succ fun halvings => ?_
  have hlength : 0 < interval * 2 ^ halvings := by positivity
  rw [eraStart_succ]
  omega

lemma halvingsLoop_spec (height interval : Int) (iterations halvings : Nat)
    (hstart : eraStart interval halvings ≤ height) :
    let reached := halvingsLoop height iterations (eraStart interval halvings)
      (interval * 2 ^ halvings) halvings
    halvings ≤ reached ∧ reached ≤ halvings + iterations ∧ eraStart interval reached ≤ height ∧
      (reached < halvings + iterations → height < eraStart interval (reached + 1)) := by
  induction iterations generalizing halvings with
  | zero => simp [halvingsLoop, hstart]
  | succ iterations ih =>
    have hdouble : interval * 2 ^ halvings * 2 = interval * 2 ^ (halvings + 1) := by ring
    rw [halvingsLoop, ← eraStart_succ, hdouble]
    split
    case isTrue hnext =>
      obtain ⟨hlower, hupper, hera, hstop⟩ := ih (halvings + 1) hnext
      exact ⟨by omega, by omega, hera, fun hlt => hstop (by omega)⟩
    case isFalse hlast =>
      exact ⟨Nat.le_refl _, by omega, hstart, fun _ => by omega⟩

/-- The result of an operation of `int64_t`, if it is one without overflow. -/
def checkedInt64 (value : Int) : Option Int :=
  if -2 ^ 63 ≤ value ∧ value < 2 ^ 63 then some value else none

/-- `halvingsLoop` that stops at a signed overflow. -/
def halvingsLoopChecked (height : Int) :
    (iterations : Nat) → (high interval : Int) → (halvings : Nat) → Option Nat
  | 0, _, _, halvings => some halvings
  | iterations + 1, high, interval, halvings => do
    let high ← checkedInt64 (high + interval)
    if height ≥ high then
      let interval ← checkedInt64 (interval * 2)
      halvingsLoopChecked height iterations high interval (halvings + 1)
    else some halvings

/-- An interval is never longer than the heights before it and the first interval together, so the
loop leaves it before the arithmetic of `int64_t` overflows. -/
theorem halvingsLoopChecked_eq (hheight : height < 2 ^ 31) {iterations : Nat}
    {high interval : Int} (hhigh : 0 ≤ high ∧ high ≤ height)
    (hlength : 0 < interval ∧ interval ≤ high + 2 ^ 31) :
    halvingsLoopChecked height iterations high interval halvings =
      some (halvingsLoop height iterations high interval halvings) := by
  induction iterations generalizing high interval halvings with
  | zero => rfl
  | succ iterations ih =>
    rw [halvingsLoopChecked, halvingsLoop, checkedInt64, if_pos (by omega)]
    simp only [Option.bind_eq_bind, Option.bind_some]
    split
    case isTrue hnext =>
      rw [checkedInt64, if_pos (by omega)]
      exact ih (by omega) (by omega)
    case isFalse => rfl

lemma getBlockSubsidy_nonneg (height : Int) (params : Params) :
    0 ≤ getBlockSubsidy height params := by
  rw [getBlockSubsidy]
  split
  · exact le_rfl
  · rw [Int.shiftRight_eq_div_pow]
    exact Int.ediv_nonneg (by decide) (by positivity)

lemma getBlockSubsidy_le (height : Int) (params : Params) :
    getBlockSubsidy height params ≤ 40 * coin := by
  unfold getBlockSubsidy
  dsimp only
  split
  · decide
  · rw [Int.shiftRight_eq_div_pow]
    apply Int.ediv_le_self
    decide

lemma issued_mono (params : Params) : Monotone (issued params) := by
  refine monotone_nat_of_le_succ fun count => ?_
  have hnonneg := getBlockSubsidy_nonneg count params
  rw [issued, issued, sum_range_succ]
  omega

variable {params : Params} (hinterval : 0 < params.nSubsidyHalvingInterval)
include hinterval

lemma eraStart_nonneg (halvings : Nat) : 0 ≤ eraStart params.nSubsidyHalvingInterval halvings := by
  have hfirst := eraStart_mono hinterval (Nat.zero_le halvings)
  simpa [eraStart] using hfirst

lemma le_halvingsLoop_iff (hnonneg : 0 ≤ height) {k : Nat} (hk : k ≤ 65) :
    k ≤ halvingsLoop height 65 0 params.nSubsidyHalvingInterval 0 ↔
      eraStart params.nSubsidyHalvingInterval k ≤ height := by
  have hzero : eraStart params.nSubsidyHalvingInterval 0 = 0 := by simp [eraStart]
  have hspec :=
    halvingsLoop_spec height params.nSubsidyHalvingInterval 65 0 (hzero.trans_le hnonneg)
  rw [hzero, pow_zero, mul_one] at hspec
  obtain ⟨-, hupper, hreached, hbeyond⟩ := hspec
  refine ⟨fun hle => (eraStart_mono hinterval hle).trans hreached, fun hera => ?_⟩
  by_contra hfew
  have hle := eraStart_mono hinterval (Nat.not_le.1 hfew)
  have hlast := hbeyond (by omega)
  exact absurd hlast (hle.trans hera).not_gt

lemma halvingsLoop_eq_of_era (hfew : halvings < 65)
    (hstart : eraStart params.nSubsidyHalvingInterval halvings ≤ height)
    (hstop : height < eraStart params.nSubsidyHalvingInterval (halvings + 1)) :
    halvingsLoop height 65 0 params.nSubsidyHalvingInterval 0 = halvings := by
  have hnonneg := (eraStart_nonneg hinterval halvings).trans hstart
  have hle := (le_halvingsLoop_iff hinterval hnonneg hfew.le).2 hstart
  have hlt := mt (le_halvingsLoop_iff hinterval hnonneg (Nat.succ_le_of_lt hfew)).1 hstop.not_ge
  omega

lemma getBlockSubsidy_of_era (hfew : halvings < 32)
    (hstart : eraStart params.nSubsidyHalvingInterval halvings ≤ height)
    (hstop : height < eraStart params.nSubsidyHalvingInterval (halvings + 1)) :
    getBlockSubsidy height params = (40 * coin) >>> (halvings * 2) := by
  rw [getBlockSubsidy, halvingsLoop_eq_of_era hinterval (by omega) hstart hstop]
  exact if_neg (by omega)

lemma issued_of_era {count : Nat} (hfew : halvings < 32)
    (hstart : eraStart params.nSubsidyHalvingInterval halvings ≤ count)
    (hstop : count ≤ eraStart params.nSubsidyHalvingInterval (halvings + 1)) :
    issued params count = issued params (eraStart params.nSubsidyHalvingInterval halvings).toNat +
        (count - eraStart params.nSubsidyHalvingInterval halvings) * (40 * coin) >>>
          (halvings * 2) := by
  have hnonneg := eraStart_nonneg hinterval halvings
  obtain ⟨start, heq⟩ := Int.eq_ofNat_of_zero_le hnonneg
  rw [heq] at hstart ⊢
  have hle : start ≤ count := by exact_mod_cast hstart
  have hera : ∑ h ∈ Ico start count, getBlockSubsidy h params =
      ∑ _h ∈ Ico start count, (40 * coin) >>> (halvings * 2) := by
    refine sum_congr rfl fun h hmem => ?_
    rw [mem_Ico] at hmem
    exact getBlockSubsidy_of_era hinterval hfew (by omega) (by omega)
  rw [issued, issued, Int.toNat_natCast, ← sum_range_add_sum_Ico _ hle, hera,
    sum_const, Nat.card_Ico, nsmul_eq_mul, Nat.cast_sub hle]

lemma issued_eraStart (hfew : halvings ≤ 32) :
    issued params (eraStart params.nSubsidyHalvingInterval halvings).toNat = ∑ era ∈ range halvings,
        params.nSubsidyHalvingInterval * 2 ^ era * (40 * coin) >>> (era * 2) := by
  induction halvings with
  | zero => simp [issued, eraStart]
  | succ halvings ih =>
    have hnonneg := eraStart_nonneg hinterval (halvings + 1)
    have hmono := eraStart_mono hinterval (Nat.le_succ halvings)
    have hcast : ((eraStart params.nSubsidyHalvingInterval (halvings + 1)).toNat : Int) =
        eraStart params.nSubsidyHalvingInterval (halvings + 1) := Int.toNat_of_nonneg hnonneg
    rw [issued_of_era hinterval (by omega) (hcast ▸ hmono) hcast.le, ih (by omega),
      sum_range_succ, hcast, eraStart_succ, add_sub_cancel_left]

lemma getBlockSubsidy_eq_zero (hlate : eraStart params.nSubsidyHalvingInterval 16 ≤ height) :
    getBlockSubsidy height params = 0 := by
  have hnonneg := (eraStart_nonneg hinterval 16).trans hlate
  have hmany := (le_halvingsLoop_iff hinterval hnonneg (by omega)).2 hlate
  rw [getBlockSubsidy]
  generalize halvingsLoop height 65 0 params.nSubsidyHalvingInterval 0 = reached at hmany ⊢
  have hpow : (2 : Int) ^ 32 ≤ 2 ^ (reached * 2) := pow_le_pow_right₀ (by decide) (by omega)
  have hsmall : (40 * coin) / 2 ^ (reached * 2) = 0 :=
    Int.ediv_eq_zero_of_lt (by decide) (lt_of_lt_of_le (by decide) hpow)
  simp [Int.shiftRight_eq_div_pow, hsmall]

/-- The era of a height an `int` can hold, and the reward in it. -/
theorem exists_era (hnonneg : 0 ≤ height) (hheight : height < 2 ^ 31) :
    ∃ halvings, IsGreatest {k | eraStart params.nSubsidyHalvingInterval k ≤ height} halvings ∧
      getBlockSubsidy height params = 40 * coin / 4 ^ halvings := by
  have hiff {k} (hk : k ≤ 65) := le_halvingsLoop_iff hinterval hnonneg hk
  generalize halvingsLoop height 65 0 params.nSubsidyHalvingInterval 0 = reached at hiff
  have hfew : reached < 32 := by
    by_contra hmany
    have hle := (hiff (by omega)).1 (not_lt.1 hmany)
    have hlong : eraStart params.nSubsidyHalvingInterval 32 =
        params.nSubsidyHalvingInterval * 4294967295 := rfl
    omega
  have hreached := (hiff (by omega)).1 le_rfl
  have hstop := not_le.1 (mt (hiff (by omega)).2 (show ¬reached + 1 ≤ reached by omega))
  refine ⟨reached, ⟨hreached, fun k hk => ?_⟩, ?_⟩
  · by_contra hlater
    have hle := eraStart_mono hinterval (show reached + 1 ≤ k by omega)
    rw [Set.mem_ofPred_eq] at hk
    omega
  · have hfour : (4 : Int) ^ reached = 2 ^ (reached * 2) := by
      rw [mul_comm, pow_mul]
      rfl
    rw [getBlockSubsidy_of_era hinterval hfew hreached hstop, Int.shiftRight_eq_div_pow, hfour]
    simp

lemma getBlockSubsidy_antitone {later : Int} (hnonneg : 0 ≤ height) (hle : height ≤ later)
    (hlater : later < 2 ^ 31) : getBlockSubsidy later params ≤ getBlockSubsidy height params := by
  obtain ⟨k, hk, hsubsidy⟩ := exists_era hinterval hnonneg (by omega)
  obtain ⟨k', hk', hsubsidy'⟩ := exists_era hinterval (hnonneg.trans hle) hlater
  obtain ⟨more, rfl⟩ := Nat.exists_eq_add_of_le (hk'.2 (hk.1.trans hle))
  rw [hsubsidy, hsubsidy', pow_add, ← Int.ediv_ediv_of_nonneg (by positivity)]
  apply Int.ediv_le_self
  exact Int.ediv_nonneg (by decide) (by positivity)

/-- The reward of every height an `int` can hold: no step of the loop overflows, the reward is
quartered once for every era passed, it never grows, and it is zero from the sixteenth era on. -/
theorem getBlockSubsidy_closed_form (hmax : params.nSubsidyHalvingInterval < 2 ^ 31) {height : Int}
    (hnonneg : 0 ≤ height) (hheight : height < 2 ^ 31) :
    halvingsLoopChecked height 65 0 params.nSubsidyHalvingInterval 0 =
        some (halvingsLoop height 65 0 params.nSubsidyHalvingInterval 0) ∧
      (∃ k, IsGreatest {k : Nat | height ≥ params.nSubsidyHalvingInterval * (2 ^ k - 1)} k ∧
        getBlockSubsidy height params = 40 * coin / 4 ^ k) ∧
      (∀ later, height ≤ later → later < 2 ^ 31 →
        getBlockSubsidy later params ≤ getBlockSubsidy height params) ∧
      (height ≥ params.nSubsidyHalvingInterval * (2 ^ 16 - 1) →
        getBlockSubsidy height params = 0) :=
  ⟨halvingsLoopChecked_eq hheight (by omega) (by omega), exists_era hinterval hnonneg hheight,
    fun _ hle hlater => getBlockSubsidy_antitone hinterval hnonneg hle hlater,
    getBlockSubsidy_eq_zero hinterval⟩

lemma issued_le_total (count : Nat) :
    issued params count ≤ issued params (eraStart params.nSubsidyHalvingInterval 16).toNat := by
  rcases Nat.le_total count (eraStart params.nSubsidyHalvingInterval 16).toNat with hle | hge
  · exact issued_mono params hle
  · have hzero : ∑ h ∈ Ico (eraStart params.nSubsidyHalvingInterval 16).toNat count,
        getBlockSubsidy h params = 0 := by
      refine sum_eq_zero fun h hmem => ?_
      rw [mem_Ico] at hmem
      exact getBlockSubsidy_eq_zero hinterval (by omega)
    rw [issued, issued, ← sum_range_add_sum_Ico _ hge, hzero, add_zero]

omit hinterval

theorem getBlockSubsidy_closed_form_mainParams :
    0 < mainParams.nSubsidyHalvingInterval ∧ mainParams.nSubsidyHalvingInterval < 2 ^ 31 ∧
      halvingsLoopChecked (2 ^ 31 - 1) 65 0 mainParams.nSubsidyHalvingInterval 0 =
        some (halvingsLoop (2 ^ 31 - 1) 65 0 mainParams.nSubsidyHalvingInterval 0) :=
  ⟨by decide, by decide, (getBlockSubsidy_closed_form (by decide) (by decide) (by decide)
    (by decide)).1⟩

/-- The main network still issues coins at the last height an `int` can hold. -/
theorem getBlockSubsidy_last_height_pos : 0 < getBlockSubsidy (2 ^ 31 - 1) mainParams := by
  decide

lemma issued_mainParams_of_tenth_era {count : Nat} (hstart : 134290800 ≤ count)
    (hstop : count ≤ 268844400) :
    issued mainParams count = 2098293710054400 + (count - 134290800) * 15258 := by
  have hinterval : 0 < mainParams.nSubsidyHalvingInterval := by decide
  have hnine : eraStart mainParams.nSubsidyHalvingInterval 9 = 134290800 := by decide
  have hten : eraStart mainParams.nSubsidyHalvingInterval (9 + 1) = 268844400 := by decide
  have hbefore := issued_eraStart hinterval (show 9 ≤ 32 by decide)
  rw [issued_of_era hinterval (show 9 < 32 by decide) (by omega) (by omega), hbefore, hnine]
  rfl

/-- The coins issued on the main network stay within `MAX_MONEY` up to height 246119999 and no
further; they never pass 21023553.45024 coins. -/
theorem issued_mainParams_moneyRange_iff (height : Nat) :
    (moneyRange (issued mainParams (height + 1)) = true ↔ height ≤ 246119999) ∧
      issued mainParams (height + 1) ≤ 2102355345024000 := by
  have hlast := issued_mainParams_of_tenth_era (show 134290800 ≤ 246120000 by decide) (by decide)
  have hfirst := issued_mainParams_of_tenth_era (show 134290800 ≤ 246120001 by decide) (by decide)
  have hinterval : 0 < mainParams.nSubsidyHalvingInterval := by decide
  have htotal := issued_eraStart hinterval (show 16 ≤ 32 by decide)
  have hnonneg : 0 ≤ issued mainParams (height + 1) := by
    simpa [issued] using issued_mono mainParams (Nat.zero_le (height + 1))
  have hmax : maxMoney = 2100000000000000 := by decide
  constructor
  · simp only [moneyRange, hmax, Bool.and_eq_true, decide_eq_true_eq, hnonneg, true_and]
    constructor
    · by_contra hhigh
      have hle := issued_mono mainParams (show 246120001 ≤ height + 1 by omega)
      omega
    · intro hheight
      have hle := issued_mono mainParams (show height + 1 ≤ 246120000 by omega)
      omega
  · apply (issued_le_total hinterval (height + 1)).trans
    rw [htotal]
    decide

/-- Block 246120000 takes the coins issued on the main network past `MAX_MONEY`. -/
theorem issued_mainParams_exceeds_maxMoney :
    moneyRange (issued mainParams (246120000 + 1)) = false := by
  rw [issued_mainParams_of_tenth_era (by decide) (by decide)]
  decide

end Tidecoin
