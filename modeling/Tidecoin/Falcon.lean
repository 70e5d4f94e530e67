import Mathlib.Algebra.BigOperators.Fin
import Mathlib.Tactic.Linarith
import Mathlib.Tactic.Positivity

/-!
The norm bound of the legacy Falcon-512 verifier. The sum of the squares is kept modulo `2 ^ 32`.
That it was `2 ^ 31` or more once stays in the highest bit of all its values or-ed together.
-/

namespace Tidecoin.Falcon512

/-- The accumulators of the loop, of 32 bits each. -/
structure Norm where
  s : Nat
  ng : Nat

/-- One coefficient. -/
def Norm.add (norm : Norm) (coefficient : Int16) : Norm :=
  let z := coefficient.toInt
  let s := (norm.s + (z * z).toNat) % 2 ^ 32
  ⟨s, norm.ng ||| s⟩

def legacyBound (logn : Nat) : Nat := (7085 * 12289) >>> (10 - logn)

/-- `tidecoin_falcon512_is_short_legacy`. -/
def isShortLegacy (logn : Nat) (s1 s2 : Fin (2 ^ logn) → Int16) : Bool :=
  if logn < 1 ∨ logn > 10 then false
  else
    let norm : Norm :=
      (List.finRange (2 ^ logn)).foldl (fun norm u => (norm.add (s1 u)).add (s2 u)) ⟨0, 0⟩
    norm.s ||| (2 ^ 32 - norm.ng >>> 31) % 2 ^ 32 < legacyBound logn

/-- The accumulators for a sum of squares: its value while the highest bit is clear. -/
def Norm.Tracks (norm : Norm) (sum : Int) : Prop :=
  sum < 2 ^ 31 ∧ norm.s = sum ∧ norm.ng < 2 ^ 31 ∨ 2 ^ 31 ≤ sum ∧ 2 ^ 31 ≤ norm.ng ∧
    norm.ng < 2 ^ 32

lemma Norm.Tracks.add {norm : Norm} {sum : Int} (h : norm.Tracks sum) (coefficient : Int16) :
    (norm.add coefficient).Tracks (sum + coefficient.toInt ^ 2) := by
  have hnonneg := mul_self_nonneg coefficient.toInt
  have hsquare : coefficient.toInt * coefficient.toInt ≤ 2 ^ 30 := by
    have hle := coefficient.le_toInt
    have hlt := coefficient.toInt_lt
    nlinarith
  rw [pow_two]
  dsimp only [Norm.add, Tracks]
  generalize coefficient.toInt * coefficient.toInt = square at *
  have hs : (norm.s + square.toNat) % 2 ^ 32 < 2 ^ 32 := Nat.mod_lt _ (by decide)
  rcases h with ⟨hsum, hvalue, hng⟩ | ⟨hsum, hng, hlt⟩
  · by_cases hsmall : sum + square < 2 ^ 31
    · exact .inl ⟨hsmall, by omega, Nat.or_lt_two_pow hng (by omega)⟩
    · -- The sum is less than `2 ^ 31 + 2 ^ 30`, so its highest bit is set at this step.
      have hhigh : 2 ^ 31 ≤ (norm.s + square.toNat) % 2 ^ 32 := by omega
      exact .inr ⟨by omega, hhigh.trans Nat.right_le_or, Nat.or_lt_two_pow (by omega) hs⟩
  · exact .inr ⟨by omega, hng.trans Nat.left_le_or, Nat.or_lt_two_pow hlt hs⟩

/-- The bound is checked exactly. -/
theorem isShortLegacy_iff (s1 s2 : Fin (2 ^ 9) → Int16) :
    isShortLegacy 9 s1 s2 ↔ ∑ u, ((s1 u).toInt ^ 2 + (s2 u).toInt ^ 2) < legacyBound 9 := by
  have hrun : ∀ (us : List (Fin (2 ^ 9))) (norm : Norm) (sum : Int), norm.Tracks sum →
      (us.foldl (fun norm u => (norm.add (s1 u)).add (s2 u)) norm).Tracks
        (sum + (us.map fun u => (s1 u).toInt ^ 2 + (s2 u).toInt ^ 2).sum) := by
    intro us
    induction us with
    | nil => simp
    | cons u us ih =>
      intro norm sum hnorm
      have hnext := ih _ _ ((hnorm.add (s1 u)).add (s2 u))
      rwa [add_assoc sum, add_assoc sum, ← List.sum_cons] at hnext
  have htracks := hrun (List.finRange _) ⟨0, 0⟩ 0 (.inl (by decide))
  rw [zero_add, ← Fin.sum_univ_def] at htracks
  rw [isShortLegacy, if_neg (by decide), decide_eq_true_eq]
  generalize List.foldl _ _ _ = norm at *
  generalize ∑ u, ((s1 u).toInt ^ 2 + (s2 u).toInt ^ 2) = sum at *
  have hbound : legacyBound 9 = 43533782 := rfl
  rcases htracks with ⟨-, hvalue, hng⟩ | ⟨hsum, hng, hlt⟩
  · have hclear : (2 ^ 32 - norm.ng >>> 31) % 2 ^ 32 = 0 := by omega
    rw [hclear, Nat.or_zero]
    omega
  · have hset : (2 ^ 32 - norm.ng >>> 31) % 2 ^ 32 = 2 ^ 32 - 1 := by omega
    have hle : 2 ^ 32 - 1 ≤ norm.s ||| (2 ^ 32 - 1) := Nat.right_le_or
    rw [hset]
    omega

end Tidecoin.Falcon512
