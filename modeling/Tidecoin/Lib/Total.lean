import Tidecoin.Lib.Store
import Mathlib.Algebra.BigOperators.Finprod
import Mathlib.Algebra.Order.BigOperators.Group.Finset
import Mathlib.Tactic.Abel

/-!
The total of a store: the sum of the weights of its values, over finitely many keys. A write to one
key changes the total by the weights of the old and the new value.
-/

namespace Tidecoin.Lib.Store

open Finset

variable {κ ν M : Type*}

/-- The weight of the value at a key, zero without a value. -/
def worth [Zero M] (weight : ν → M) (value : Option ν) : M := (value.map weight).getD 0

variable (weight : ν → M)

@[simp] lemma worth_none [Zero M] : worth weight none = 0 := rfl

@[simp] lemma worth_some [Zero M] (value : ν) : worth weight (some value) = weight value := rfl

/-- The sum of the weights of all values. -/
noncomputable def total [AddCommMonoid M] (weight : ν → M) (store : Store κ ν) : M :=
  ∑ᶠ key, worth weight (store key)

variable [Finite κ]

lemma total_update [DecidableEq κ] [AddCommGroup M] (store : Store κ ν) (key : κ)
    (value : Option ν) :
    total weight (Function.update store key value) =
      total weight store - worth weight (store key) + worth weight value := by
  cases nonempty_fintype κ
  have hpoint : (fun other => worth weight (Function.update store key value other)) =
      Function.update (fun other => worth weight (store other)) key (worth weight value) := by
    funext other
    by_cases heq : other = key
    · simp [heq]
    · simp [heq]
  unfold total
  rw [finsum_eq_sum_of_fintype, finsum_eq_sum_of_fintype, hpoint,
    sum_update_of_mem (mem_univ key), sdiff_singleton_eq_erase,
    ← add_sum_erase _ _ (mem_univ key)]
  abel

lemma total_nonneg [AddCommMonoid M] [PartialOrder M] [IsOrderedAddMonoid M] {weight : ν → M}
    {store : Store κ ν} (hweight : ∀ key value, store key = some value → 0 ≤ weight value) :
    0 ≤ total weight store := by
  cases nonempty_fintype κ
  unfold total
  rw [finsum_eq_sum_of_fintype]
  apply sum_nonneg
  intro key _
  cases hvalue : store key with
  | none => exact le_rfl
  | some value => exact hweight key value hvalue

end Tidecoin.Lib.Store
