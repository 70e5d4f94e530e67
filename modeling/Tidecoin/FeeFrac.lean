import Tidecoin.Subsidy
import Mathlib.Data.Prod.Lex
import Mathlib.Data.Rat.Floor
import Mathlib.Tactic.Linarith

/-!
The arithmetic of `util/feefrac.h` for platforms without 128-bit integers. A product of 96 bits is a
signed high word and an unsigned low word, and is divided in two stages.
-/

namespace Tidecoin

/-- The range of a signed value of 64 bits. -/
abbrev Fits (value : Int) : Prop := -2 ^ 63 ≤ value ∧ value < 2 ^ 63

structure FeeFrac where
  fee : Int64
  size : Int32

namespace FeeFrac

/-- `MulFallback`: quotients and remainders by `2 ^ 32` are the source's shifts and conversions. -/
def mulFallback (a : Int64) (b : Int32) : Option (Int × Nat) := do
  let low ← checkedInt64 (a.toInt % 2 ^ 32 * b.toInt)
  let high ← checkedInt64 (a.toInt / 2 ^ 32 * b.toInt)
  let first ← checkedInt64 (high + low / 2 ^ 32)
  return (first, (low % 2 ^ 32).toNat)

/-- What a truncated quotient misses. -/
def correction (mod : Int) (roundDown : Bool) : Int :=
  (if mod > 0 then 1 else 0) - if mod ≠ 0 ∧ roundDown then 1 else 0

/-- `DivFallback`. -/
def divFallback (n : Int × Nat) (d : Int32) (roundDown : Bool) : Option Int := do
  let quotHigh ← checkedInt64 (n.1.tdiv d.toInt)
  let shifted ← checkedInt64 (n.1.tmod d.toInt * 2 ^ 32)
  let nLow ← checkedInt64 (shifted + n.2)
  let quotLow ← checkedInt64 (nLow.tdiv d.toInt)
  let quotLow ← checkedInt64 (quotLow + correction (nLow.tmod d.toInt) roundDown)
  let high ← checkedInt64 (quotHigh * 2 ^ 32)
  checkedInt64 (high + quotLow)

def ceilDiv (dividend divisor : Nat) : Nat :=
  dividend / divisor + if dividend % divisor ≠ 0 then 1 else 0

/-- `EvaluateFee`. The common case is unsigned, and its result is converted back to a signed one. -/
def evaluateFee (feefrac : FeeFrac) (atSize : Int32) (roundDown : Bool) : Option Int :=
  if 0 ≤ feefrac.fee.toInt ∧ feefrac.fee.toInt < 0x200000000 then
    let product := feefrac.fee.toInt.toNat * (atSize.toInt % 2 ^ 64).toNat % 2 ^ 64
    let size := (feefrac.size.toInt % 2 ^ 32).toNat
    let quotient := if roundDown then product / size else ceilDiv product size
    some (Int.bmod quotient (2 ^ 64))
  else do divFallback (← mulFallback feefrac.fee atSize) feefrac.size roundDown

/-- The quotient rounded down or up. -/
def rounded (n d : Int) (roundDown : Bool) : Int :=
  if roundDown then ⌊(n / d : ℚ)⌋ else ⌈(n / d : ℚ)⌉

section

variable {d : Int} (hd : 0 < d) (n : Int) (roundDown : Bool)
include hd

lemma rounded_eq_iff {z : Int} : rounded n d roundDown = z ↔
    if roundDown then d * z ≤ n ∧ n < d * z + d else d * z - d < n ∧ n ≤ d * z := by
  have hpos : (0 : ℚ) < d := by exact_mod_cast hd
  cases roundDown with
  | true =>
    rw [rounded, if_pos rfl, if_pos rfl, Int.floor_eq_iff, le_div_iff₀ hpos, div_lt_iff₀ hpos]
    norm_cast
    rw [Int.add_mul, Int.one_mul, Int.mul_comm z]
  | false =>
    rw [rounded, if_neg (by simp), if_neg (by simp), Int.ceil_eq_iff, lt_div_iff₀ hpos,
      div_le_iff₀ hpos]
    norm_cast
    rw [Int.sub_mul, Int.one_mul, Int.mul_comm z]

lemma rounded_add (m : Int) : rounded (d * m + n) d roundDown = m + rounded n d roundDown := by
  have hne : (d : ℚ) ≠ 0 := by exact_mod_cast hd.ne'
  have hsplit : ((d * m + n) / d : ℚ) = m + n / d := by rw [add_div, mul_div_cancel_left₀ _ hne]
  cases roundDown <;> simp [rounded, hsplit]

lemma tdiv_add_correction :
    n.tdiv d + correction (n.tmod d) roundDown = rounded n d roundDown := by
  have hn := Int.mul_tdiv_add_tmod n d
  have hlt := Int.tmod_lt_of_pos n hd
  have hgt := Int.lt_tmod_of_pos n hd
  symm
  rw [rounded_eq_iff hd n, Int.mul_add]
  unfold correction
  split_ifs <;> simp_all <;> omega

lemma rounded_mem_uIcc : rounded n d roundDown ∈ Set.uIcc 0 n := by
  have hn := (rounded_eq_iff hd n roundDown).1 rfl
  generalize rounded n d roundDown = z at *
  have hz : d * z - d < n ∧ n < d * z + d := by split at hn <;> omega
  rw [Set.mem_uIcc]
  rcases le_total 0 n with h | h
  · exact .inl ⟨by nlinarith, by split at hn <;> nlinarith⟩
  · exact .inr ⟨by split at hn <;> nlinarith, by nlinarith⟩

end

lemma checkedInt64_eq {value : Int} (h : Fits value) : checkedInt64 value = some value := if_pos h

variable {a : Int64} {b d : Int32} {roundDown : Bool}

lemma mulFallback_eq : mulFallback a b =
    some (a.toInt * b.toInt / 2 ^ 32, (a.toInt * b.toInt % 2 ^ 32).toNat) := by
  have hb := b.le_toInt
  have hb' := b.toInt_lt
  have hlow : Fits (a.toInt % 2 ^ 32 * b.toInt) := by
    have hnonneg : 0 ≤ a.toInt % 2 ^ 32 := by omega
    have hlt : a.toInt % 2 ^ 32 < 2 ^ 32 := by omega
    constructor <;> nlinarith
  have hhigh : -2 ^ 62 ≤ a.toInt / 2 ^ 32 * b.toInt ∧ a.toInt / 2 ^ 32 * b.toInt ≤ 2 ^ 62 := by
    have hge : -2 ^ 31 ≤ a.toInt / 2 ^ 32 := by have := a.le_toInt; omega
    have hlt : a.toInt / 2 ^ 32 < 2 ^ 31 := by have := a.toInt_lt; omega
    constructor <;> nlinarith
  have hproduct : a.toInt * b.toInt =
      a.toInt % 2 ^ 32 * b.toInt + 2 ^ 32 * (a.toInt / 2 ^ 32 * b.toInt) := by
    rw [← Int.mul_assoc, ← Int.add_mul, Int.emod_add_mul_ediv]
  unfold mulFallback
  generalize a.toInt % 2 ^ 32 * b.toInt = low, a.toInt / 2 ^ 32 * b.toInt = high,
    a.toInt * b.toInt = product at *
  refine Option.bind_eq_some_iff.2 ⟨low, checkedInt64_eq hlow, ?_⟩
  refine Option.bind_eq_some_iff.2 ⟨high, checkedInt64_eq (by omega), ?_⟩
  refine Option.bind_eq_some_iff.2 ⟨product / 2 ^ 32, ?_, ?_⟩
  · rw [checkedInt64_eq (by omega), Option.some_inj]
    omega
  · rw [hproduct, Int.add_mul_emod_self_left]
    rfl

/-- A computation gives the rounded quotient if that fits. -/
def Exact (result : Option Int) (n d : Int) (roundDown : Bool) : Prop :=
  Fits (rounded n d roundDown) → result = some (rounded n d roundDown)

lemma divFallback_exact {n : Int} (hd : 0 < d.toInt) (hn : Fits (n / 2 ^ 32)) :
    Exact (divFallback (n / 2 ^ 32, (n % 2 ^ 32).toNat) d roundDown) n d.toInt roundDown := by
  intro hfits
  have hlt := d.toInt_lt
  have hsecond : (n % 2 ^ 32).toNat < 2 ^ 32 := by omega
  have hvalue : n = n / 2 ^ 32 * 2 ^ 32 + (n % 2 ^ 32).toNat := by omega
  unfold divFallback
  dsimp only
  generalize n / 2 ^ 32 = first, (n % 2 ^ 32).toNat = second at *
  have hsigns : 0 ≤ first.tdiv d.toInt ∧ 0 ≤ first.tmod d.toInt ∨
      first.tdiv d.toInt ≤ 0 ∧ first.tmod d.toInt ≤ 0 := by
    obtain ⟨k, rfl | rfl⟩ := first.eq_nat_or_neg
    · exact .inl ⟨Int.tdiv_nonneg (by omega) hd.le, Int.tmod_nonneg _ (by omega)⟩
    · rw [Int.neg_tdiv, Int.neg_tmod, neg_nonpos, neg_nonpos]
      exact .inr ⟨Int.tdiv_nonneg (by omega) hd.le, Int.tmod_nonneg _ (by omega)⟩
  have hquot := Int.natAbs_tdiv_le_natAbs first d.toInt
  have hmod := Int.tmod_lt_of_pos first hd
  have hmod' := Int.lt_tmod_of_pos first hd
  rw [← Int.mul_tdiv_add_tmod first d.toInt, Int.add_mul, Int.mul_assoc, Int.add_assoc] at hvalue
  rw [hvalue, rounded_add hd] at hfits ⊢
  generalize first.tdiv d.toInt = quotHigh, first.tmod d.toInt = modHigh at *
  have hnext := Int.natAbs_tdiv_le_natAbs (modHigh * 2 ^ 32 + second) d.toInt
  have hlow := Set.mem_uIcc.1 (rounded_mem_uIcc hd (modHigh * 2 ^ 32 + second) roundDown)
  -- The high part is between zero and the result, or the low part is below `2 ^ 32`.
  refine Option.bind_eq_some_iff.2 ⟨_, checkedInt64_eq (by omega), ?_⟩
  refine Option.bind_eq_some_iff.2 ⟨_, checkedInt64_eq (by omega), ?_⟩
  refine Option.bind_eq_some_iff.2 ⟨_, checkedInt64_eq (by omega), ?_⟩
  refine Option.bind_eq_some_iff.2 ⟨_, checkedInt64_eq (by omega), ?_⟩
  rw [tdiv_add_correction hd]
  refine Option.bind_eq_some_iff.2 ⟨_, checkedInt64_eq (by omega), ?_⟩
  refine Option.bind_eq_some_iff.2 ⟨_, checkedInt64_eq (by omega), ?_⟩
  exact checkedInt64_eq hfits

lemma mulFallback_divFallback (hd : 0 < d.toInt) :
    Exact ((mulFallback a b).bind (divFallback · d roundDown)) (a.toInt * b.toInt) d.toInt
      roundDown := by
  have hbounds : -2 ^ 94 ≤ a.toInt * b.toInt ∧ a.toInt * b.toInt ≤ 2 ^ 94 := by
    constructor <;> nlinarith [a.le_toInt, a.toInt_lt, b.le_toInt, b.toInt_lt]
  rw [mulFallback_eq]
  exact divFallback_exact hd (by omega)

lemma evaluateFee_exact {feefrac : FeeFrac} {atSize : Int32} (hsize : 0 < feefrac.size.toInt)
    (hat : 0 ≤ atSize.toInt) : Exact (feefrac.evaluateFee atSize roundDown)
      (feefrac.fee.toInt * atSize.toInt) feefrac.size.toInt roundDown := by
  rw [evaluateFee]
  split
  case isFalse => exact mulFallback_divFallback hsize
  case isTrue hcommon =>
    intro hfits
    have hsize' := feefrac.size.toInt_lt
    have hat' := atSize.toInt_lt
    generalize feefrac.fee.toInt = fee, feefrac.size.toInt = size, atSize.toInt = atSize at *
    lift fee to Nat using hcommon.1
    lift size to Nat using hsize.le
    lift atSize to Nat using hat
    have hproduct : fee * atSize < 2 ^ 64 := by
      calc fee * atSize ≤ 2 ^ 33 * atSize := Nat.mul_le_mul_right _ (by omega)
        _ < 2 ^ 64 := by omega
    have hatSize : ((atSize : Int) % 2 ^ 64).toNat = atSize := by omega
    have hsizeEq : ((size : Int) % 2 ^ 32).toNat = size := by omega
    rw [hatSize, hsizeEq, Int.toNat_natCast, Nat.mod_eq_of_lt hproduct]
    rw [← Int.natCast_mul] at *
    generalize fee * atSize = product at *
    have hexact : ((if roundDown then product / size else ceilDiv product size : Nat) : Int) =
        rounded product size roundDown := by
      rw [← tdiv_add_correction hsize, ← Int.ofNat_tdiv, ← Int.ofNat_tmod]
      cases roundDown <;> simp [correction, ceilDiv] <;> split <;> omega
    dsimp only
    rw [hexact, Int.bmod_eq_of_le (by omega) (by omega)]

/-- The products are ordered as the integers they stand for, their division gives the exact
quotient, rounded as asked and without an overflow on the way, and so does `EvaluateFee`. -/
theorem fallback_exact :
    (∀ (a c : Int64) (b d : Int32), ∃ left right, mulFallback a b = some left ∧
      mulFallback c d = some right ∧
      cmp (toLex left) (toLex right) = cmp (a.toInt * b.toInt) (c.toInt * d.toInt)) ∧
    (∀ (a : Int64) (b d : Int32) (roundDown : Bool), 0 < d.toInt →
      Exact ((mulFallback a b).bind (divFallback · d roundDown)) (a.toInt * b.toInt) d.toInt
        roundDown) ∧
    ∀ (feefrac : FeeFrac) (atSize : Int32) (roundDown : Bool), 0 < feefrac.size.toInt →
      0 ≤ atSize.toInt → Exact (feefrac.evaluateFee atSize roundDown)
        (feefrac.fee.toInt * atSize.toInt) feefrac.size.toInt roundDown := by
  refine ⟨?_, fun a b d roundDown => mulFallback_divFallback, fun _ _ _ => evaluateFee_exact⟩
  intro a c b d
  have hmono : StrictMono fun n : Int => toLex (n / 2 ^ 32, (n % 2 ^ 32).toNat) := by
    intro m n hlt
    rw [Prod.Lex.toLex_lt_toLex]
    omega
  exact ⟨_, _, mulFallback_eq, mulFallback_eq, hmono.cmp_map_eq _ _⟩

theorem fallback_exact_negative : evaluateFee ⟨-7, 2⟩ 1 true = some (-4) := by
  have hfloor : rounded (-7) 2 true = -4 := (rounded_eq_iff (by decide) _ _).2 (by decide)
  rw [← hfloor]
  apply fallback_exact.2.2 ⟨-7, 2⟩ 1 true (by decide) (by decide)
  change Fits (rounded (-7) 2 true)
  rw [hfloor]
  decide

end FeeFrac

end Tidecoin
