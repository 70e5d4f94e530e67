import Mathlib.Data.Set.Function
import Mathlib.Data.List.Infix

/-!
Sub-list search and Merkle branches, over arbitrary types. `search` returns the first position at
which a pattern occurs, as `std::search` does. `foldBranch` climbs a branch from a leaf to the
root; the bits of the index say on which side the climbing value stands.
-/

namespace Tidecoin.Lib

open List

variable {α : Type*}

section

variable [DecidableEq α]

/-- First position of `pattern` in the text, counted from the front. -/
def search (pattern : List α) : List α → Option Nat
  | [] => if pattern.isEmpty then some 0 else none
  | x :: text =>
    if pattern.isPrefixOf (x :: text) then some 0 else (search pattern text).map (· + 1)

variable {pattern text : List α} {position : Nat} (hfound : search pattern text = some position)
include hfound

lemma search_isPrefix : pattern <+: text.drop position := by
  induction text generalizing position with
  | nil =>
    rw [search] at hfound
    split at hfound
    case isTrue hempty =>
      rw [isEmpty_iff.1 hempty]
      exact nil_prefix
    case isFalse => cases hfound
  | cons x text ih =>
    rw [search] at hfound
    split at hfound
    case isTrue hinitial =>
      cases hfound
      exact isPrefixOf_iff_prefix.1 hinitial
    case isFalse =>
      obtain ⟨rest, hrest, rfl⟩ := Option.map_eq_some_iff.1 hfound
      exact ih hrest

lemma search_eq_take : pattern = (text.drop position).take pattern.length :=
  prefix_iff_eq_take.1 (search_isPrefix hfound)

end

variable (combine : α → α → α)

/-- One climbing step: an odd index puts the sibling on the left. -/
def branchPair (node sibling : α) (index : Int) : α × α :=
  if index % 2 = 1 then (sibling, node) else (node, sibling)

/-- The root reached from `node` along `branch`. -/
def foldBranch : (node : α) → (branch : List α) → (index : Int) → α
  | node, [], _ => node
  | node, sibling :: branch, index =>
    foldBranch (combine (branchPair node sibling index).1 (branchPair node sibling index).2)
      branch (index / 2)

/-- The pairs combined on the way from `node` to the root. -/
def branchPairs : (node : α) → (branch : List α) → (index : Int) → List (α × α)
  | _, [], _ => []
  | node, sibling :: branch, index =>
    branchPair node sibling index ::
      branchPairs (combine (branchPair node sibling index).1 (branchPair node sibling index).2)
        branch (index / 2)

lemma branchPair_node_injective {node node' sibling sibling' : α} {index : Int}
    (heq : branchPair node sibling index = branchPair node' sibling' index) : node = node' := by
  simp only [branchPair] at heq
  split at heq <;> simp_all

/-- If `combine` has no collision among the pairs two branches combine, then branches of one
length that reach the same root at the same index start from the same leaf. -/
theorem foldBranch_leaf_unique {node node' : α} {branch branch' : List α} {index : Int}
    (hlen : branch.length = branch'.length)
    (hinj : Set.InjOn (fun pair : α × α => combine pair.1 pair.2)
      { pair | pair ∈ branchPairs combine node branch index ∨
        pair ∈ branchPairs combine node' branch' index })
    (hroot : foldBranch combine node branch index = foldBranch combine node' branch' index) :
    node = node' := by
  induction branch generalizing node node' branch' index with
  | nil =>
    cases branch' with
    | nil => exact hroot
    | cons => simp at hlen
  | cons sibling branch ih =>
    cases branch' with
    | nil => simp at hlen
    | cons sibling' branch' =>
      have hnext := ih (by simpa using hlen)
        (hinj.mono fun pair hpair => hpair.imp (mem_cons_of_mem _) (mem_cons_of_mem _)) hroot
      exact branchPair_node_injective (hinj (.inl mem_cons_self) (.inr mem_cons_self) hnext)

end Tidecoin.Lib
