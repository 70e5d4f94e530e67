import Mathlib.Order.Bounds.Basic
import Mathlib.Tactic.Ring

/-!
Rounding down to numbers with a short mantissa. Such a number is `m * base ^ k` with `m` below a
limit of `low * base`, and a number is rounded down by dropping its `k` low digits.
-/

namespace Tidecoin.Lib

/-- The numbers with a mantissa below `limit`. -/
def shortNumbers (base limit : Nat) : Set Nat := {value | ∃ m k, m < limit ∧ value = m * base ^ k}

variable {base low k x : Nat} (hbase : 0 < base) (hlow : k ≠ 0 → low * base ^ k ≤ x)
include hbase hlow

/-- Dropping digits rounds down, if the mantissa that is left could not be longer. -/
theorem isGreatest_dropDigits (hshort : x / base ^ k < low * base) :
    IsGreatest {value | value ∈ shortNumbers base (low * base) ∧
      value ≤ x} (x / base ^ k * base ^ k) := by
  refine ⟨⟨⟨_, k, hshort, rfl⟩, Nat.div_mul_le_self x _⟩, ?_⟩
  rintro value ⟨⟨m, j, hm, rfl⟩, hle⟩
  by_cases hj : k ≤ j
  · -- The number is a multiple of the last digit that is kept.
    obtain ⟨extra, rfl⟩ := Nat.exists_eq_add_of_le hj
    rw [Nat.pow_add, Nat.mul_left_comm, Nat.mul_comm] at hle ⊢
    exact Nat.mul_le_mul_right _ ((Nat.le_div_iff_mul_le (Nat.pow_pos hbase)).2 hle)
  · -- The number is below the least one with a full mantissa.
    obtain ⟨extra, rfl⟩ := Nat.exists_eq_add_of_lt (not_le.1 hj)
    have hfull : low ≤ x / base ^ (j + extra + 1) :=
      (Nat.le_div_iff_mul_le (Nat.pow_pos hbase)).2 (hlow (Nat.succ_ne_zero _))
    calc m * base ^ j ≤ low * base * base ^ j := Nat.mul_le_mul_right _ hm.le
      _ = low * base ^ (j + 1) := by ring
      _ ≤ low * base ^ (j + extra + 1) :=
        Nat.mul_le_mul_left _ (Nat.pow_le_pow_right hbase (by omega))
      _ ≤ _ := Nat.mul_le_mul_right _ hfull

theorem dropDigits_error (hx : x ≠ 0) (hpos : 0 < low) :
    (x - x / base ^ k * base ^ k) * low < x := by
  have hmod : x - x / base ^ k * base ^ k = x % base ^ k := by
    rw [Nat.mul_comm, ← Nat.mod_eq_sub_mul_div]
  have hlt := Nat.mod_lt x (Nat.pow_pos hbase (n := k))
  rw [hmod]
  by_cases hk : k = 0
  · rw [hk, Nat.pow_zero, Nat.mod_one, Nat.zero_mul]
    exact Nat.pos_of_ne_zero hx
  · calc x % base ^ k * low < base ^ k * low := Nat.mul_lt_mul_of_pos_right hlt hpos
      _ ≤ x := by rw [Nat.mul_comm]; exact hlow hk

end Tidecoin.Lib
